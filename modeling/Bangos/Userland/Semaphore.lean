import Bangos.Userland.Mutex

/-!
# Semaphores (`userland/include/synch.h`)

A semaphore is a counter and a mutex.  `sem_wait` tests the counter under the mutex, and sleeps on
it after the mutex has been released; `sem_post` increments it under the mutex and wakes one
sleeper.  The places of a thread contain its place in the mutex code, so that a run of threads on
a semaphore is, seen through `SemPc.mutex`, a run on its mutex: `sem_refines_mutex`.  Mutual
exclusion then makes the counter exact.

That no waiter is stranded rests on a count of its own.  A thread has *pledged* when it will test
the counter again, or has incremented it and not yet woken anybody; while a thread sleeps on the
counter, there are at least as many pledges as the counter says.
-/

namespace Bangos.Userland

open Threads Runs

variable {n : ℕ}

/-! ## The code -/

/-- Where a thread is in `sem_wait` or `sem_post`.  `s->count--` and `s->count++` are a load and
a store. -/
inductive SemPc where
  | outside
  | waitLock (m : MutexPc)
  | waitTest
  | waitLoad
  | waitStore (c : ℤ)
  /-- In `mutex_unlock`; `got` when the counter has been decremented. -/
  | waitUnlock (m : MutexPc) (got : Bool)
  | waitFutex
  | asleep
  | postLock (m : MutexPc)
  | postLoad
  | postStore (c : ℤ)
  | postUnlock (m : MutexPc)
  | postWake
deriving DecidableEq

/-- The two calls. -/
inductive SemCall where
  | wait
  | post

/-- The semaphore and the places of the threads, with the number of decrements and increments
made so far. -/
structure Sem (n : ℕ) where
  count : ℤ
  lock : ℤ
  pc : Fin n → SemPc
  waits : ℕ
  posts : ℕ

/-- `sem_init`, with all threads outside. -/
def semInit (n : ℕ) (val : ℤ) : Sem n := ⟨val, 0, fun _ => .outside, 0, 0⟩

/-- The place in `mutex_lock`, or the place `next` behind it. -/
def afterLock (stay : MutexPc → SemPc) (next : SemPc) (m : MutexPc) : SemPc :=
  if m = .holding then next else stay m

/-- The place in `mutex_unlock`, or the place `next` behind it. -/
def afterUnlock (stay : MutexPc → SemPc) (next : SemPc) (m : MutexPc) : SemPc :=
  if m = .outside then next else stay m

/-- The place of a thread in the code of the mutex. -/
def SemPc.mutex : SemPc → MutexPc
  | .outside | .waitFutex | .asleep | .postWake => .outside
  | .waitLock m | .postLock m | .waitUnlock m _ | .postUnlock m => m
  | .waitTest | .waitLoad | .waitStore _ | .postLoad | .postStore _ => .holding

/-- Asleep on the mutex. -/
def SemPc.sleepsOnLock (l : SemPc) : Bool := l.mutex.sleeps

/-- A thread that is woken from the mutex goes on with the exchange. -/
def SemPc.wokenOnLock : SemPc → SemPc
  | .waitLock _ => .waitLock .exchange
  | .postLock _ => .postLock .exchange
  | .waitUnlock _ got => .waitUnlock .exchange got
  | .postUnlock _ => .postUnlock .exchange
  | l => l

/-- Asleep on the counter. -/
def SemPc.sleepsOnCount (l : SemPc) : Bool := l == .asleep

/-- A thread that is woken from the counter starts again with `mutex_lock`. -/
def SemPc.wokenOnCount (_ : SemPc) : SemPc := .waitLock .compareExchange

/-- A step of the mutex code for a thread at the mutex place `m`. -/
def semMutexStep (s : Sem n) (t : Fin n) (m : MutexPc) (k : MutexPc → SemPc) : Sem n :=
  let r := mutexNext s.lock m
  let pc := if m = .futexWake then wakeFirst SemPc.sleepsOnLock SemPc.wokenOnLock s.pc else s.pc
  { s with lock := r.1, pc := Function.update pc t (k r.2) }

/-- Move a thread. -/
def Sem.goto (s : Sem n) (t : Fin n) (l : SemPc) : Sem n :=
  { s with pc := Function.update s.pc t l }

/-- The next step of thread `t`, which makes the call `c` if it is outside. -/
def semStep (s : Sem n) (e : Fin n × SemCall) : Sem n :=
  match s.pc e.1 with
  | .outside =>
    match e.2 with
    | .wait => s.goto e.1 (.waitLock .compareExchange)
    | .post => s.goto e.1 (.postLock .compareExchange)
  | .waitLock m => semMutexStep s e.1 m (afterLock .waitLock .waitTest)
  | .waitTest =>
    if 0 < s.count then s.goto e.1 .waitLoad else s.goto e.1 (.waitUnlock .fetchSub false)
  | .waitLoad => s.goto e.1 (.waitStore s.count)
  | .waitStore c =>
    { s.goto e.1 (.waitUnlock .fetchSub true) with count := c - 1, waits := s.waits + 1 }
  | .waitUnlock m got =>
    semMutexStep s e.1 m
      (afterUnlock (.waitUnlock · got) (if got then .outside else .waitFutex))
  -- `FUTEX_WAIT` with 0 returns at once when the counter is something else
  | .waitFutex =>
    s.goto e.1 (if s.count = 0 then .asleep else .waitLock .compareExchange)
  | .asleep => s
  | .postLock m => semMutexStep s e.1 m (afterLock .postLock .postLoad)
  | .postLoad => s.goto e.1 (.postStore s.count)
  | .postStore c =>
    { s.goto e.1 (.postUnlock .fetchSub) with count := c + 1, posts := s.posts + 1 }
  | .postUnlock m => semMutexStep s e.1 m (afterUnlock .postUnlock .postWake)
  | .postWake =>
    { s with
      pc := Function.update (wakeFirst SemPc.sleepsOnCount SemPc.wokenOnCount s.pc) e.1 .outside }

/-! ## The mutex of a semaphore -/

/-- The mutex of a semaphore, as the threads use it. -/
def Sem.mutex (s : Sem n) : Mutex n := ⟨s.lock, SemPc.mutex ∘ s.pc⟩

section Refinement

variable {s : Sem n} {t : Fin n} {l : SemPc} {m : MutexPc} {k : MutexPc → SemPc}

lemma goto_mutex_eq (h : l.mutex = (s.pc t).mutex) : (s.goto t l).mutex = s.mutex := by
  unfold Sem.mutex Sem.goto
  dsimp only
  rw [Function.comp_update, h]
  exact congrArg _ (Function.update_eq_self t (SemPc.mutex ∘ s.pc))

lemma goto_mutex_step (hwake : (s.pc t).mutex ≠ .futexWake)
    (h : mutexNext s.lock (s.pc t).mutex = (s.lock, l.mutex)) :
    (s.goto t l).mutex = mutexStep s.mutex t := by
  unfold mutexStep Sem.mutex Sem.goto
  dsimp only [Function.comp_apply]
  rw [h, if_neg hwake, Function.comp_update]

lemma semMutexStep_mutex (hm : (s.pc t).mutex = m) (hk : ∀ m', (k m').mutex = m') :
    (semMutexStep s t m k).mutex = mutexStep s.mutex t := by
  have hwake : SemPc.mutex ∘ wakeFirst SemPc.sleepsOnLock SemPc.wokenOnLock s.pc =
      wakeFirst MutexPc.sleeps MutexPc.woken (SemPc.mutex ∘ s.pc) := by
    refine wakeFirst_comp SemPc.mutex (fun l hl => ?_) s.pc
    cases l <;> first | rfl | exact absurd hl Bool.noConfusion
  subst hm
  unfold semMutexStep mutexStep Sem.mutex
  dsimp only [Function.comp_apply]
  rw [Function.comp_update, hk]
  by_cases h : (s.pc t).mutex = .futexWake
  · rw [if_pos h, if_pos h, hwake]
  · rw [if_neg h, if_neg h]

lemma afterLock_mutex {stay : MutexPc → SemPc} {next : SemPc} (hs : ∀ m, (stay m).mutex = m)
    (hn : next.mutex = .holding) (m : MutexPc) : (afterLock stay next m).mutex = m := by
  unfold afterLock
  split_ifs with h
  · rw [h, hn]
  · exact hs m

lemma afterUnlock_mutex {stay : MutexPc → SemPc} {next : SemPc} (hs : ∀ m, (stay m).mutex = m)
    (hn : next.mutex = .outside) (m : MutexPc) : (afterUnlock stay next m).mutex = m := by
  unfold afterUnlock
  split_ifs with h
  · rw [h, hn]
  · exact hs m

/-- **A run on a semaphore is a run on its mutex**: a step leaves the mutex, or is a step of one
thread on it. -/
theorem sem_refines_mutex (s : Sem n) (e : Fin n × SemCall) :
    (semStep s e).mutex = s.mutex ∨ ∃ u, (semStep s e).mutex = mutexStep s.mutex u := by
  obtain ⟨t, call⟩ := e
  unfold semStep
  dsimp only
  cases h : s.pc t with
  | outside =>
    have hstep : ∀ l : SemPc, l.mutex = .compareExchange → (s.goto t l).mutex = mutexStep s.mutex t :=
      fun l hl => goto_mutex_step (by rw [h]; decide) (by rw [h, hl]; rfl)
    cases call with
    | wait => exact Or.inr ⟨t, hstep _ rfl⟩
    | post => exact Or.inr ⟨t, hstep _ rfl⟩
  | waitLock m =>
    exact Or.inr ⟨t, semMutexStep_mutex (by rw [h]; rfl) (afterLock_mutex (fun _ => rfl) rfl)⟩
  | postLock m =>
    exact Or.inr ⟨t, semMutexStep_mutex (by rw [h]; rfl) (afterLock_mutex (fun _ => rfl) rfl)⟩
  | waitUnlock m got =>
    exact Or.inr ⟨t, semMutexStep_mutex (by rw [h]; rfl)
      (afterUnlock_mutex (fun _ => rfl) (by cases got <;> rfl))⟩
  | postUnlock m =>
    exact Or.inr ⟨t, semMutexStep_mutex (by rw [h]; rfl) (afterUnlock_mutex (fun _ => rfl) rfl)⟩
  | waitTest =>
    dsimp only
    split_ifs
    · exact Or.inl (goto_mutex_eq (by rw [h]; rfl))
    · exact Or.inr ⟨t, goto_mutex_step (by rw [h]; decide) (by rw [h]; rfl)⟩
  | waitLoad => exact Or.inl (goto_mutex_eq (by rw [h]; rfl))
  | postLoad => exact Or.inl (goto_mutex_eq (by rw [h]; rfl))
  | waitStore c =>
    refine Or.inr ⟨t, ?_⟩
    exact goto_mutex_step (l := .waitUnlock .fetchSub true) (by rw [h]; exact MutexPc.noConfusion)
      (by rw [h]; rfl)
  | postStore c =>
    refine Or.inr ⟨t, ?_⟩
    exact goto_mutex_step (l := .postUnlock .fetchSub) (by rw [h]; exact MutexPc.noConfusion)
      (by rw [h]; rfl)
  | waitFutex =>
    dsimp only
    split_ifs
    · exact Or.inl (goto_mutex_eq (by rw [h]; rfl))
    · exact Or.inr ⟨t, goto_mutex_step (by rw [h]; decide) (by rw [h]; rfl)⟩
  | asleep => exact Or.inl rfl
  | postWake =>
    dsimp only
    rcases wakeFirst_cases SemPc.sleepsOnCount SemPc.wokenOnCount s.pc with
      ⟨-, heq⟩ | ⟨u, hu, heq⟩
    · rw [heq]
      exact Or.inl (goto_mutex_eq (l := .outside) (by rw [h]; rfl))
    · -- the sleeper on the counter enters `mutex_lock`
      have hu : s.pc u = .asleep := of_decide_eq_true hu
      rw [heq]
      refine Or.inr ⟨u, ?_⟩
      have hut : t ≠ u := by
        rintro rfl
        rw [h] at hu
        cases hu
      have hgoto : (s.goto u (.waitLock .compareExchange)).mutex = mutexStep s.mutex u :=
        goto_mutex_step (by rw [hu]; decide) (by rw [hu]; rfl)
      rw [← hgoto]
      refine goto_mutex_eq (s := s.goto u (.waitLock .compareExchange)) (l := .outside) ?_
      change MutexPc.outside = (Function.update s.pc u _ t).mutex
      rw [Function.update_of_ne hut, h]
      rfl

end Refinement

/-! ## The invariant -/

/-- What a thread knows about the counter at its place. -/
def LocalOk (count : ℤ) : SemPc → Prop
  | .waitLoad => 0 < count
  | .waitStore c => c = count ∧ 0 < count
  | .postStore c => c = count
  | _ => True

/-- The places at which a thread will test the counter again, or has incremented it and not yet
woken a sleeper. -/
def SemPc.pledged : SemPc → Bool
  | .waitLock _ | .waitTest | .waitLoad | .waitStore _ | .postUnlock _ | .postWake => true
  | _ => false

/-- What holds in every state of a semaphore that was initialised with `val`. -/
structure SemInv (val : ℤ) (s : Sem n) : Prop where
  mutex : MutexInv s.mutex
  account : s.count = val + s.posts - s.waits
  nonneg : 0 ≤ s.count
  known : ∀ t, LocalOk s.count (s.pc t)
  pledge : (∃ t, s.pc t = .asleep) → s.count ≤ tally SemPc.pledged s.pc

lemma semInv_init (n : ℕ) {val : ℤ} (h : 0 ≤ val) : SemInv val (semInit n val) where
  mutex := mutexInv_init n
  account := by simp [semInit]
  nonneg := h
  known := fun _ => trivial
  pledge := by
    rintro ⟨t, ht⟩
    cases ht

section Step

variable {val : ℤ} {s : Sem n} {t : Fin n} {l : SemPc}

/-- Only the owner of the mutex knows anything about the counter. -/
lemma localOk_of_not_owns {count : ℤ} (h : l.mutex.owns = false) : LocalOk count l := by
  cases l <;> trivial

lemma asleep_of_update {pc : Fin n → SemPc} (hl : l ≠ .asleep)
    (h : ∃ u, Function.update pc t l u = .asleep) : ∃ u, pc u = .asleep := by
  obtain ⟨u, hu⟩ := h
  by_cases hut : u = t
  · rw [hut, Function.update_self] at hu
    exact absurd hu hl
  · rw [Function.update_of_ne hut] at hu
    exact ⟨u, hu⟩

lemma SemInv.goto (hs : SemInv val s) (hm : MutexInv (s.goto t l).mutex) (hl : LocalOk s.count l)
    (hp : s.count ≤ 0 ∨ l ≠ .asleep ∧ (s.pc t).pledged.toNat ≤ l.pledged.toNat) :
    SemInv val (s.goto t l) where
  mutex := hm
  account := hs.account
  nonneg := hs.nonneg
  known := by
    intro u
    unfold Sem.goto
    by_cases hut : u = t
    · rw [hut]
      dsimp only
      rwa [Function.update_self]
    · dsimp only
      rw [Function.update_of_ne hut]
      exact hs.known u
  pledge := by
    intro hsleep
    change s.count ≤ tally SemPc.pledged (Function.update s.pc t l)
    rcases hp with hp | ⟨hne, hp⟩
    · exact hp.trans (Int.natCast_nonneg _)
    · have hold := hs.pledge (asleep_of_update hne hsleep)
      have hcount := tally_update SemPc.pledged s.pc t l
      omega

/-- The owner of the mutex moves and changes the counter, and its pledge with it. -/
lemma SemInv.store {c : ℤ} {waits posts : ℕ} (hs : SemInv val s)
    (hm : MutexInv (s.goto t l).mutex) (ht : (s.pc t).mutex.owns = true)
    (hacc : c = val + posts - waits) (hc : 0 ≤ c) (hl : LocalOk c l) (hne : l ≠ .asleep)
    (hp : c + (s.pc t).pledged.toNat = s.count + l.pledged.toNat) :
    SemInv val { s.goto t l with count := c, waits := waits, posts := posts } where
  mutex := hm
  account := hacc
  nonneg := hc
  known := by
    intro u
    change LocalOk c (Function.update s.pc t l u)
    by_cases hut : u = t
    · rwa [hut, Function.update_self]
    · rw [Function.update_of_ne hut]
      refine localOk_of_not_owns (Bool.eq_false_iff.mpr fun hu => hut ?_)
      exact hs.mutex.owner_unique hu ht
  pledge := by
    intro hsleep
    change c ≤ tally SemPc.pledged (Function.update s.pc t l)
    have hold := hs.pledge (asleep_of_update hne hsleep)
    have hcount := tally_update SemPc.pledged s.pc t l
    omega

/-- A place to which the code of the mutex can lead: the thread knows nothing new, does not sleep
on the counter, and has the pledge `b`. -/
def Steady (count : ℤ) (b : Bool) (l : SemPc) : Prop :=
  LocalOk count l ∧ l ≠ .asleep ∧ l.pledged = b

lemma SemInv.mutexStep {m : MutexPc} {k : MutexPc → SemPc} (hs : SemInv val s)
    (hm : MutexInv (semMutexStep s t m k).mutex)
    (hk : ∀ m', Steady s.count (s.pc t).pledged (k m')) : SemInv val (semMutexStep s t m k) := by
  -- a thread that is woken from the mutex stays in its call
  have hwoken : ∀ l : SemPc, l.sleepsOnLock = true → Steady s.count l.pledged l.wokenOnLock := by
    intro l h
    cases l <;> first
      | exact absurd h Bool.noConfusion
      | exact ⟨trivial, SemPc.noConfusion, rfl⟩
  obtain ⟨pc, hpc, hmove⟩ : ∃ pc, (semMutexStep s t m k).pc =
      Function.update pc t (k (mutexNext s.lock m).2) ∧
      ∀ u, pc u = s.pc u ∨ (s.pc u).sleepsOnLock = true ∧ pc u = (s.pc u).wokenOnLock := by
    refine ⟨_, rfl, fun u => ?_⟩
    split_ifs
    · exact wakeFirst_apply _ _ _ u
    · exact Or.inl rfl
  have htally : tally SemPc.pledged pc = tally SemPc.pledged s.pc := by
    refine tally_congr fun u => ?_
    rcases hmove u with h | ⟨hu, h⟩
    · rw [h]
    · rw [h, (hwoken _ hu).2.2]
  refine ⟨hm, hs.account, hs.nonneg, fun u => ?_, fun hsleep => ?_⟩
  · rw [hpc]
    change LocalOk s.count _
    by_cases hut : u = t
    · rw [hut, Function.update_self]
      exact (hk _).1
    · rw [Function.update_of_ne hut]
      rcases hmove u with h | ⟨hu, h⟩
      · rw [h]
        exact hs.known u
      · rw [h]
        exact (hwoken _ hu).1
  · rw [hpc] at hsleep ⊢
    obtain ⟨u, hu⟩ := asleep_of_update (hk _).2.1 hsleep
    have hcount := tally_update SemPc.pledged pc t (k (mutexNext s.lock m).2)
    have hself : (pc t).pledged = (s.pc t).pledged := by
      rcases hmove t with h | ⟨ht, h⟩
      · rw [h]
      · rw [h, (hwoken _ ht).2.2]
    have hold := hs.pledge ⟨u, by
      rcases hmove u with h | ⟨hu', h⟩
      · rw [← h, hu]
      · exact absurd (h.symm.trans hu) (hwoken _ hu').2.1⟩
    rw [(hk _).2.2, hself] at hcount
    change s.count ≤ _
    omega

/-- `FUTEX_WAKE` on the counter: the pledge of the thread passes to the sleeper it wakes. -/
lemma SemInv.wake (hs : SemInv val s) (ht : s.pc t = .postWake)
    (hm : MutexInv (Sem.mutex { s with
      pc := Function.update (wakeFirst SemPc.sleepsOnCount SemPc.wokenOnCount s.pc) t .outside })) :
    SemInv val { s with
      pc := Function.update (wakeFirst SemPc.sleepsOnCount SemPc.wokenOnCount s.pc) t .outside } := by
  refine ⟨hm, hs.account, hs.nonneg, fun u => ?_, fun hsleep => ?_⟩
  · dsimp only
    by_cases hut : u = t
    · rw [hut, Function.update_self]
      trivial
    · rw [Function.update_of_ne hut]
      rcases wakeFirst_apply SemPc.sleepsOnCount SemPc.wokenOnCount s.pc u with h | ⟨-, h⟩
      · rw [h]
        exact hs.known u
      · rw [h]
        trivial
  · dsimp only at hsleep ⊢
    have hsleep := asleep_of_update SemPc.noConfusion hsleep
    rcases wakeFirst_cases SemPc.sleepsOnCount SemPc.wokenOnCount s.pc with
      ⟨hnone, heq⟩ | ⟨u, hu, heq⟩
    · obtain ⟨v, hv⟩ := hsleep
      rw [heq] at hv
      have := hnone v
      rw [hv] at this
      cases this
    · have hu : s.pc u = .asleep := of_decide_eq_true hu
      have hut : t ≠ u := by
        rintro rfl
        rw [ht] at hu
        cases hu
      have hold := hs.pledge ⟨u, hu⟩
      have h1 := tally_update SemPc.pledged s.pc u (SemPc.wokenOnCount (s.pc u))
      have h2 := tally_update SemPc.pledged
        (Function.update s.pc u (SemPc.wokenOnCount (s.pc u))) t .outside
      rw [Function.update_of_ne hut, ht] at h2
      rw [hu] at h1 h2
      rw [heq, hu]
      simp only [SemPc.pledged, SemPc.wokenOnCount, Bool.toNat_false, Bool.toNat_true] at h1 h2 ⊢
      omega

lemma afterLock_steady {count : ℤ} {b : Bool} {stay : MutexPc → SemPc} {next : SemPc}
    (hs : ∀ m, Steady count b (stay m)) (hn : Steady count b next) (m : MutexPc) :
    Steady count b (afterLock stay next m) := by
  unfold afterLock
  split_ifs
  · exact hn
  · exact hs m

lemma afterUnlock_steady {count : ℤ} {b : Bool} {stay : MutexPc → SemPc} {next : SemPc}
    (hs : ∀ m, Steady count b (stay m)) (hn : Steady count b next) (m : MutexPc) :
    Steady count b (afterUnlock stay next m) := by
  unfold afterUnlock
  split_ifs
  · exact hn
  · exact hs m

/-- Seen through its mutex a step is one of the mutex, or none. -/
lemma SemInv.mutex_step (hs : SemInv val s) (e : Fin n × SemCall) : MutexInv (semStep s e).mutex := by
  rcases sem_refines_mutex s e with h | ⟨u, h⟩
  · rw [h]
    exact hs.mutex
  · rw [h]
    exact hs.mutex.step u

/-- `s->count--` of the owner, who has seen a positive counter. -/
lemma SemInv.decrement (hs : SemInv val s) (h : s.pc t = .waitStore s.count) (hpos : 0 < s.count)
    (hm : MutexInv (s.goto t (.waitUnlock .fetchSub true)).mutex) :
    SemInv val { s.goto t (.waitUnlock .fetchSub true) with
      count := s.count - 1, waits := s.waits + 1 } := by
  have hacc := hs.account
  refine hs.store hm (by rw [h]; rfl) ?_ (by omega) trivial SemPc.noConfusion ?_
  · push_cast [Sem.goto]
    omega
  · rw [h]
    simp [SemPc.pledged]

/-- `s->count++` of the owner: it pledges to wake a sleeper. -/
lemma SemInv.increment (hs : SemInv val s) (h : s.pc t = .postStore s.count)
    (hm : MutexInv (s.goto t (.postUnlock .fetchSub)).mutex) :
    SemInv val { s.goto t (.postUnlock .fetchSub) with
      count := s.count + 1, posts := s.posts + 1 } := by
  have hacc := hs.account
  have hnn := hs.nonneg
  refine hs.store hm (by rw [h]; rfl) ?_ (by omega) trivial SemPc.noConfusion ?_
  · push_cast [Sem.goto]
    omega
  · rw [h]
    simp [SemPc.pledged]

/-- **Every step keeps the invariant.** -/
theorem SemInv.step (hs : SemInv val s) (e : Fin n × SemCall) : SemInv val (semStep s e) := by
  have hm := hs.mutex_step e
  obtain ⟨t, call⟩ := e
  have hk := hs.known t
  unfold semStep at hm ⊢
  dsimp only at hm ⊢
  cases h : s.pc t with
  | outside =>
    rw [h] at hm
    cases call with
    | wait => exact hs.goto hm trivial (Or.inr ⟨SemPc.noConfusion, by rw [h]; decide⟩)
    | post => exact hs.goto hm trivial (Or.inr ⟨SemPc.noConfusion, by rw [h]; decide⟩)
  | waitLock m =>
    rw [h] at hm
    refine hs.mutexStep hm ?_
    rw [h]
    exact afterLock_steady (fun _ => ⟨trivial, SemPc.noConfusion, rfl⟩)
      ⟨trivial, SemPc.noConfusion, rfl⟩
  | waitTest =>
    rw [h] at hm
    dsimp only at hm ⊢
    split_ifs at hm ⊢ with hc
    · exact hs.goto hm hc (Or.inr ⟨SemPc.noConfusion, by rw [h]; decide⟩)
    · exact hs.goto hm trivial (Or.inl (not_lt.mp hc))
  | waitLoad =>
    rw [h] at hm hk
    exact hs.goto hm ⟨rfl, hk⟩ (Or.inr ⟨SemPc.noConfusion, by rw [h]; exact le_rfl⟩)
  | waitStore c =>
    rw [h] at hm hk
    obtain ⟨rfl, hpos⟩ := hk
    exact hs.decrement h hpos hm
  | waitUnlock m got =>
    rw [h] at hm
    refine hs.mutexStep hm ?_
    rw [h]
    refine afterUnlock_steady (fun _ => ⟨trivial, SemPc.noConfusion, rfl⟩) ?_
    cases got
    · exact ⟨trivial, SemPc.noConfusion, rfl⟩
    · exact ⟨trivial, SemPc.noConfusion, rfl⟩
  | waitFutex =>
    rw [h] at hm
    dsimp only at hm ⊢
    split_ifs at hm ⊢ with hc
    · exact hs.goto hm trivial (Or.inl hc.le)
    · exact hs.goto hm trivial (Or.inr ⟨SemPc.noConfusion, by rw [h]; decide⟩)
  | asleep => exact hs
  | postLock m =>
    rw [h] at hm
    refine hs.mutexStep hm ?_
    rw [h]
    exact afterLock_steady (fun _ => ⟨trivial, SemPc.noConfusion, rfl⟩)
      ⟨trivial, SemPc.noConfusion, rfl⟩
  | postLoad =>
    rw [h] at hm
    exact hs.goto hm rfl (Or.inr ⟨SemPc.noConfusion, by rw [h]; exact le_rfl⟩)
  | postStore c =>
    rw [h] at hm hk
    obtain rfl : c = s.count := hk
    exact hs.increment h hm
  | postUnlock m =>
    rw [h] at hm
    refine hs.mutexStep hm ?_
    rw [h]
    exact afterUnlock_steady (fun _ => ⟨trivial, SemPc.noConfusion, rfl⟩)
      ⟨trivial, SemPc.noConfusion, rfl⟩
  | postWake =>
    rw [h] at hm
    exact hs.wake h hm

end Step

/-- **The semaphore is safe**: after any interleaving of any number of threads the counter is the
initial value plus the increments minus the decrements and is not negative; and when it is
positive and a thread sleeps on it, another thread is inside `sem_wait` or `sem_post`. -/
theorem semaphore_safe (n : ℕ) {val : ℤ} (hval : 0 ≤ val) (es : List (Fin n × SemCall)) :
    ((runFrom semStep (semInit n val) es).count =
        val + (runFrom semStep (semInit n val) es).posts -
          (runFrom semStep (semInit n val) es).waits ∧
      0 ≤ (runFrom semStep (semInit n val) es).count) ∧
    ∀ t, (runFrom semStep (semInit n val) es).pc t = .asleep →
      0 < (runFrom semStep (semInit n val) es).count →
      ∃ u, u ≠ t ∧ (runFrom semStep (semInit n val) es).pc u ≠ .outside := by
  have hs : SemInv val (runFrom semStep (semInit n val) es) :=
    invariant_runFrom_of_step (fun s e hs => hs.step e) (semInv_init n hval) es
  generalize runFrom semStep (semInit n val) es = s at hs
  refine ⟨⟨hs.account, hs.nonneg⟩, fun t ht hpos => ?_⟩
  have hpledge := hs.pledge ⟨t, ht⟩
  obtain ⟨u, hu⟩ := tally_pos_iff.mp (by omega : 0 < tally SemPc.pledged s.pc)
  refine ⟨u, ?_, ?_⟩
  · rintro rfl
    rw [ht] at hu
    cases hu
  · intro hout
    rw [hout] at hu
    cases hu

/-- Thread 0 sleeps on the counter, and thread 1 has incremented it and not yet woken anybody. -/
theorem semaphore_safe_sleeper :
    ∃ u, u ≠ 0 ∧ (runFrom semStep (semInit 2 0)
      ([(0, .wait), (0, .wait), (0, .wait), (0, .wait), (0, .wait)] ++
        [(1, .post), (1, .post), (1, .post), (1, .post)])).pc u ≠ .outside :=
  (semaphore_safe 2 le_rfl
    ([(0, .wait), (0, .wait), (0, .wait), (0, .wait), (0, .wait)] ++
      [(1, .post), (1, .post), (1, .post), (1, .post)])).2 0 (by decide) (by decide)

end Bangos.Userland
