import Bangos.Lib.Runs
import Bangos.Lib.Threads
import Bangos.Process.Lifecycle

/-!
# Mutexes (`userland/include/synch.h`)

A mutex is one word: 0 when it is free, 1 when it is held, 2 when it is held and somebody may be
sleeping.  `mutex_lock` and `mutex_unlock` are sequences of atomic steps, a compare-exchange, an
exchange, a fetch-and-subtract, a plain store and calls of `SYS_FUTEX`; the place of a thread says
which step comes next.  A run is any list of threads, each of which takes its next step.

The invariant has two halves.  The word is 0 exactly when no thread owns the mutex, where a
thread that has found a 2 in `mutex_unlock` owns it until its store.  And when a thread sleeps,
the word is 2 or some thread that is awake is about to exchange, to store or to wake.
-/

namespace Bangos.Userland

open Threads Runs

variable {n : ℕ}

/-! ## The code -/

/-- Where a thread is: the next atomic step of `mutex_lock` or `mutex_unlock`, asleep in
`FUTEX_WAIT`, between the two calls, or outside. -/
inductive MutexPc where
  | outside
  | compareExchange
  | exchange
  | futexWait
  | asleep
  | holding
  | fetchSub
  | storeZero
  | futexWake
deriving DecidableEq

/-- The word and the places of the threads. -/
structure Mutex (n : ℕ) where
  val : ℤ
  pc : Fin n → MutexPc

/-- `mutex_init`, with all threads outside. -/
def mutexInit (n : ℕ) : Mutex n := ⟨0, fun _ => .outside⟩

/-- The next step of a thread: the word and the place afterwards.  A thread outside calls
`mutex_lock`, a thread that holds the mutex calls `mutex_unlock`. -/
def mutexNext (val : ℤ) : MutexPc → ℤ × MutexPc
  | .outside => (val, .compareExchange)
  -- the observed value `c` decides: 2 goes straight into the loop
  | .compareExchange =>
    if val = 0 then (1, .holding) else if val = 2 then (val, .futexWait) else (val, .exchange)
  | .exchange => (2, if val = 0 then .holding else .futexWait)
  -- `FUTEX_WAIT` with 2 returns at once when the word is something else
  | .futexWait => (val, if val = 2 then .asleep else .exchange)
  | .asleep => (val, .asleep)
  | .holding => (val, .fetchSub)
  | .fetchSub => (val - 1, if val = 1 then .outside else .storeZero)
  | .storeZero => (0, .futexWake)
  | .futexWake => (val, .outside)

/-- Asleep on the word. -/
def MutexPc.sleeps (l : MutexPc) : Bool := l == .asleep

/-- A thread that is woken goes on with the exchange. -/
def MutexPc.woken (_ : MutexPc) : MutexPc := .exchange

/-- The next step of thread `t`; `FUTEX_WAKE` wakes the first sleeper of the table. -/
def mutexStep (s : Mutex n) (t : Fin n) : Mutex n :=
  let r := mutexNext s.val (s.pc t)
  let pc := if s.pc t = .futexWake then wakeFirst MutexPc.sleeps MutexPc.woken s.pc else s.pc
  ⟨r.1, Function.update pc t r.2⟩

/-- `futex_wake` with a count of 1 wakes the first sleeper of the process table. -/
theorem futexWake_one (ps : Proc.ProcTable) {uaddr : ℕ} (h : uaddr ≠ 0) :
    (Proc.futexWake ps uaddr 1).2 =
      wakeFirst (Proc.futexSleeper uaddr) (fun p => { p with waitChannel := 0, state := .ready })
        ps := by
  have hloop : ∀ is : List (Fin Proc.maxProcesses), (Proc.futexWakeLoop uaddr is 1 ps).2 =
      (is.find? fun i => Proc.futexSleeper uaddr (ps i)).elim ps
        (fun i => Function.update ps i { ps i with waitChannel := 0, state := .ready }) := by
    intro is
    induction is with
    | nil => rfl
    | cons i is ih =>
      rw [Proc.futexWakeLoop, List.find?_cons]
      cases hs : Proc.futexSleeper uaddr (ps i) with
      | true => cases is <;> rfl
      | false => exact ih
  unfold Proc.futexWake wakeFirst first
  rw [if_neg (by omega)]
  refine (hloop (List.finRange Proc.maxProcesses)).trans ?_
  cases (List.finRange Proc.maxProcesses).find? fun i => Proc.futexSleeper uaddr (ps i) <;> rfl

/-- Of two sleepers the first is woken. -/
theorem futexWake_one_of_two :
    let ps : Proc.ProcTable := fun i => { Proc.Process.zero with
      active := true
      state := if i.val < 2 then .sleeping else .ready
      waitChannel := 0x1000 }
    (Proc.futexWake ps 0x1000 1).2 =
      wakeFirst (Proc.futexSleeper 0x1000) (fun p => { p with waitChannel := 0, state := .ready })
        ps :=
  futexWake_one _ (by decide)

/-! ## The invariant -/

/-- The places at which a thread owns the mutex. -/
def MutexPc.owns : MutexPc → Bool
  | .holding | .fetchSub | .storeZero => true
  | _ => false

/-- The places at which a thread is about to set the word to 2 or to wake a sleeper. -/
def MutexPc.helps : MutexPc → Bool
  | .exchange | .storeZero | .futexWake => true
  | _ => false

/-- The places inside `mutex_lock` and `mutex_unlock`. -/
def MutexPc.inside : MutexPc → Bool
  | .outside | .holding => false
  | _ => true

/-- A sleeper will be found: the word says so, or somebody is on the way. -/
def Helped (s : Mutex n) : Prop := s.val = 2 ∨ ∃ u, (s.pc u).helps = true

/-- What holds in every state: the word tells whether the mutex is owned, by one thread at most,
and no sleeper is forgotten. -/
structure MutexInv (s : Mutex n) : Prop where
  word : s.val = 0 ∨ s.val = 1 ∨ s.val = 2
  owners : tally MutexPc.owns s.pc = if s.val = 0 then 0 else 1
  helped : (∃ t, s.pc t = .asleep) → Helped s

lemma mutexInv_init (n : ℕ) : MutexInv (mutexInit n) where
  word := Or.inl rfl
  owners := by simp [mutexInit, tally, MutexPc.owns]
  helped := by
    rintro ⟨t, ht⟩
    cases ht

section Step

variable {s : Mutex n} {t u : Fin n}

lemma mutexStep_val (s : Mutex n) (t : Fin n) :
    (mutexStep s t).val = (mutexNext s.val (s.pc t)).1 := rfl

/-- A step that is no `FUTEX_WAKE` moves one thread. -/
lemma mutexStep_pc (h : s.pc t ≠ .futexWake) :
    (mutexStep s t).pc = Function.update s.pc t (mutexNext s.val (s.pc t)).2 := by
  unfold mutexStep
  rw [if_neg h]

/-- A `FUTEX_WAKE` also moves a sleeper, if there is one. -/
lemma mutexStep_pc_wake (h : s.pc t = .futexWake) :
    (∀ u, s.pc u ≠ .asleep) ∧ (mutexStep s t).pc = Function.update s.pc t .outside ∨
      ∃ u, s.pc u = .asleep ∧ u ≠ t ∧
        (mutexStep s t).pc = Function.update (Function.update s.pc u .exchange) t .outside := by
  unfold mutexStep
  rw [if_pos h, h]
  rcases wakeFirst_cases MutexPc.sleeps MutexPc.woken s.pc with ⟨hnone, heq⟩ | ⟨u, hu, heq⟩
  · rw [heq]
    refine Or.inl ⟨fun u hu => ?_, rfl⟩
    have := hnone u
    rw [hu] at this
    cases this
  · have hu : s.pc u = .asleep := of_decide_eq_true hu
    rw [heq]
    refine Or.inr ⟨u, hu, ?_, rfl⟩
    rintro rfl
    rw [hu] at h
    cases h

/-- The word and the owner after the step of a thread: the new word is one of the three, and the
thread becomes or ceases to be the owner as the word becomes or ceases to be different from 0. -/
lemma mutexNext_owns {val : ℤ} {l : MutexPc} (hw : val = 0 ∨ val = 1 ∨ val = 2)
    (hown : l.owns = true → val ≠ 0) :
    ((mutexNext val l).1 = 0 ∨ (mutexNext val l).1 = 1 ∨ (mutexNext val l).1 = 2) ∧
      (if (mutexNext val l).1 = 0 then 0 else 1) + l.owns.toNat =
        (if val = 0 then 0 else 1) + (mutexNext val l).2.owns.toNat := by
  rcases hw with rfl | rfl | rfl <;> cases l <;> revert hown <;> decide

/-- A thread that helps, or that moves while the word is 2, leaves the word at 2 or helps
afterwards; the wake-up apart. -/
lemma mutexNext_helps {val : ℤ} {l : MutexPc} (hl : l ≠ .futexWake)
    (h : val = 2 ∨ l.helps = true) :
    (mutexNext val l).1 = 2 ∨ (mutexNext val l).2.helps = true := by
  rcases h with rfl | h
  · cases l <;> first | exact absurd rfl hl | decide
  · cases l <;> first
      | exact absurd rfl hl
      | exact absurd h Bool.noConfusion
      | exact Or.inl rfl
      | exact Or.inr rfl

/-- Help stays on the way, but for a wake-up. -/
lemma Helped.step (hs : Helped s) (h : s.pc t ≠ .futexWake) : Helped (mutexStep s t) := by
  have hself : s.val = 2 ∨ (s.pc t).helps = true → Helped (mutexStep s t) := by
    intro ht
    refine (mutexNext_helps h ht).imp id fun h' => ⟨t, ?_⟩
    rw [mutexStep_pc h, Function.update_self]
    exact h'
  rcases hs with h2 | ⟨u, hu⟩
  · exact hself (Or.inl h2)
  · by_cases hut : u = t
    · exact hself (Or.inr (hut ▸ hu))
    · exact Or.inr ⟨u, by rwa [mutexStep_pc h, Function.update_of_ne hut]⟩

/-- A thread falls asleep when the word is 2. -/
lemma mutexNext_asleep {val : ℤ} {l : MutexPc} (hl : l ≠ .asleep)
    (h : (mutexNext val l).2 = .asleep) : (mutexNext val l).1 = 2 := by
  cases l with
  | asleep => exact absurd rfl hl
  | futexWait =>
    dsimp only [mutexNext] at h ⊢
    split_ifs at h with h2
    exact h2
  | outside | holding | storeZero | futexWake => cases h
  | compareExchange | exchange | fetchSub =>
    dsimp only [mutexNext] at h
    split_ifs at h

/-- The wake-up keeps the invariant: the sleeper that is woken helps the others. -/
lemma MutexInv.step_wake (hs : MutexInv s) (h : s.pc t = .futexWake) :
    MutexInv (mutexStep s t) := by
  have hval : (mutexStep s t).val = s.val := by rw [mutexStep_val, h]; rfl
  have hout : (MutexPc.owns (s.pc t)).toNat = 0 := by rw [h]; rfl
  rcases mutexStep_pc_wake h with ⟨hnone, heq⟩ | ⟨u, hu, hut, heq⟩
  · refine ⟨by rw [hval]; exact hs.word, ?_, ?_⟩
    · have hcount := tally_update MutexPc.owns s.pc t .outside
      rw [hval, heq, ← hs.owners]
      rw [hout] at hcount
      exact hcount
    · rintro ⟨v, hv⟩
      rw [heq] at hv
      by_cases hvt : v = t
      · rw [hvt, Function.update_self] at hv
        cases hv
      · rw [Function.update_of_ne hvt] at hv
        exact absurd hv (hnone v)
  · refine ⟨by rw [hval]; exact hs.word, ?_, fun _ => Or.inr ⟨u, ?_⟩⟩
    · have h1 := tally_update MutexPc.owns s.pc u .exchange
      have h2 := tally_update MutexPc.owns (Function.update s.pc u .exchange) t .outside
      rw [Function.update_of_ne hut.symm, hout] at h2
      rw [hu] at h1
      rw [hval, heq, ← hs.owners]
      exact h2.trans h1
    · rw [heq, Function.update_of_ne hut, Function.update_self]
      rfl

/-- **Every step keeps the invariant.** -/
theorem MutexInv.step (hs : MutexInv s) (t : Fin n) : MutexInv (mutexStep s t) := by
  by_cases h : s.pc t = .futexWake
  · exact hs.step_wake h
  have hown : (s.pc t).owns = true → s.val ≠ 0 := by
    intro ht h0
    have hpos : 0 < tally MutexPc.owns s.pc := tally_pos_iff.mpr ⟨t, ht⟩
    rw [hs.owners, if_pos h0] at hpos
    exact absurd hpos (Nat.lt_irrefl 0)
  obtain ⟨hword, hcount⟩ := mutexNext_owns hs.word hown
  refine ⟨hword, ?_, ?_⟩
  · have htally := tally_update MutexPc.owns s.pc t (mutexNext s.val (s.pc t)).2
    rw [hs.owners] at htally
    rw [mutexStep_val, mutexStep_pc h]
    omega
  · rintro ⟨u, hu⟩
    by_cases hold : ∃ v, s.pc v = .asleep
    · exact (hs.helped hold).step h
    · -- the thread that moves is the one that falls asleep
      rw [mutexStep_pc h] at hu
      by_cases hut : u = t
      · rw [hut, Function.update_self] at hu
        exact Or.inl (mutexNext_asleep (fun hl => hold ⟨t, hl⟩) hu)
      · rw [Function.update_of_ne hut] at hu
        exact absurd ⟨u, hu⟩ hold

/-- An owner that is not between the two calls is inside one, and awake. -/
lemma MutexPc.inside_of_owns {l : MutexPc} (h : l.owns = true) (hne : l ≠ .holding) :
    l ≠ .asleep ∧ l.inside = true := by
  cases l <;> first | exact absurd rfl hne | exact absurd h Bool.noConfusion | decide

/-- A thread that helps is inside a call, and awake. -/
lemma MutexPc.inside_of_helps {l : MutexPc} (h : l.helps = true) :
    l ≠ .asleep ∧ l.inside = true := by
  cases l <;> first | exact absurd h Bool.noConfusion | decide

/-- In the invariant the mutex is owned by one thread at most. -/
lemma MutexInv.owner_unique (hs : MutexInv s) (ht : (s.pc t).owns = true)
    (hu : (s.pc u).owns = true) : t = u := by
  refine eq_of_tally_le_one ?_ ht hu
  rw [hs.owners]
  split_ifs <;> omega

end Step

/-- **The mutex is safe**: after any interleaving of any number of threads at most one thread is
between a completed `mutex_lock` and its `mutex_unlock`; and when the mutex is free and a thread
sleeps on it, another thread that is awake is inside `mutex_lock` or `mutex_unlock`. -/
theorem mutex_safe (n : ℕ) (ts : List (Fin n)) :
    (∀ t u, (runFrom mutexStep (mutexInit n) ts).pc t = .holding →
      (runFrom mutexStep (mutexInit n) ts).pc u = .holding → t = u) ∧
    ∀ t, (runFrom mutexStep (mutexInit n) ts).pc t = .asleep →
      ((runFrom mutexStep (mutexInit n) ts).val = 0 ∨
        ∀ u, (runFrom mutexStep (mutexInit n) ts).pc u ≠ .holding) →
      ∃ u, u ≠ t ∧ (runFrom mutexStep (mutexInit n) ts).pc u ≠ .asleep ∧
        ((runFrom mutexStep (mutexInit n) ts).pc u).inside = true := by
  have hs : MutexInv (runFrom mutexStep (mutexInit n) ts) :=
    invariant_runFrom_of_step (fun s t hs => hs.step t) (mutexInv_init n) ts
  generalize runFrom mutexStep (mutexInit n) ts = s at hs
  refine ⟨fun t u ht hu => hs.owner_unique (by rw [ht]; rfl) (by rw [hu]; rfl),
    fun t ht hfree => ?_⟩
  have hother : ∀ u, s.pc u ≠ .asleep ∧ (s.pc u).inside = true →
      ∃ u, u ≠ t ∧ s.pc u ≠ .asleep ∧ (s.pc u).inside = true := fun u hu =>
    ⟨u, fun hut => hu.1 (hut ▸ ht), hu⟩
  rcases hs.helped ⟨t, ht⟩ with h2 | ⟨u, hu⟩
  · -- somebody owns the mutex, and is not between the two calls
    have hno : ∀ u, s.pc u ≠ .holding := hfree.resolve_left (by rw [h2]; decide)
    have hpos : 0 < tally MutexPc.owns s.pc := by
      rw [hs.owners, h2]
      decide
    obtain ⟨u, hu⟩ := tally_pos_iff.mp hpos
    exact hother u (MutexPc.inside_of_owns hu (hno u))
  · exact hother u (MutexPc.inside_of_helps hu)

/-- Thread 1 has gone to sleep while thread 0 held the mutex, and thread 0 has just stored 0. -/
theorem mutex_safe_sleeper :
    ∃ u, u ≠ 1 ∧ (runFrom mutexStep (mutexInit 2) [0, 0, 1, 1, 1, 1, 0, 0, 0]).pc u ≠ .asleep ∧
      ((runFrom mutexStep (mutexInit 2) [0, 0, 1, 1, 1, 1, 0, 0, 0]).pc u).inside = true :=
  (mutex_safe 2 [0, 0, 1, 1, 1, 1, 0, 0, 0]).2 1 (by decide) (Or.inl (by decide))

end Bangos.Userland
