import Bangos.Lib.Runs
import Bangos.Process.Steps

/-!
# Sockets and the descriptors that refer to them

A slot of the socket table should be free only when no descriptor of an active process refers
to its node (`SocketInv`).  `fd_free` closes the node without looking at its reference
count, so this needs that a descriptor that goes away was the last one; `SYS_SHUTDOWN` closes
the socket and leaves the descriptor.
-/

namespace Bangos.Fs

open Bangos.Net

/-- The descriptor is in use and refers to socket slot `i`. -/
def FileDesc.refers (d : FileDesc) (i : Fin maxNetSockets) : Prop :=
  d.inUse = true ∧ d.node = some (.sock i)

instance (d : FileDesc) (i : Fin maxNetSockets) : Decidable (d.refers i) :=
  inferInstanceAs (Decidable (_ ∧ _))

/-- Slot `i` of the socket table is in use. -/
def Files.sockInUse (fs : Files) (i : Fin maxNetSockets) : Bool := (fs.sockets.table i).inUse

section Files

variable {fs : Files} {table : FdTable} {i j : Fin maxNetSockets} {fd : Fin vfsMaxFd}

/-! ## What the operations do to the slots in use -/

lemma modifyRefcount_sockInUse (fs : Files) (f : ℤ → ℤ) (n : NodeRef)
    (i : Fin maxNetSockets) : (modifyRefcount fs f n).sockInUse i = fs.sockInUse i := by
  cases n with
  | sock j =>
    by_cases hij : i = j
    · subst hij
      simp [modifyRefcount, Files.sockInUse]
    · simp [modifyRefcount, Files.sockInUse, hij]
  | file id => rfl

lemma socketClose_inUse_of_ne (s : Sockets) (h : i ≠ j) :
    ((socketClose s j).table i).inUse = (s.table i).inUse := by
  unfold socketClose
  dsimp only
  split_ifs
  · rfl
  split
  · simp [h]
  · simp [h]

lemma nodeClose_sockInUse {n : NodeRef} (h : n ≠ .sock i) :
    (nodeClose fs n).sockInUse i = fs.sockInUse i := by
  cases n with
  | sock j =>
    have hij : i ≠ j := fun e => h (by rw [e])
    dsimp only [nodeClose]
    split_ifs
    · exact socketClose_inUse_of_ne fs.sockets hij
    · rfl
  | file id => rfl

/-- Freeing a descriptor keeps every slot in use that it does not refer to. -/
lemma fdFree_sockInUse (h : ¬ (table fd).refers i) (hi : fs.sockInUse i = true) :
    (fdFree fs table fd).2.1.sockInUse i = true := by
  unfold fdFree
  split_ifs with hbad
  · exact hi
  · have huse : (table fd).inUse = true := by
      rw [not_or] at hbad
      simpa using hbad.2
    dsimp only
    split
    · rename_i n hn
      rw [modifyRefcount_sockInUse, nodeClose_sockInUse]
      · exact hi
      · rintro rfl
        exact h ⟨huse, hn⟩
    · exact hi

/-- Freeing a descriptor changes that descriptor only, which is not in use afterwards. -/
lemma fdFree_table (fs : Files) (table : FdTable) (fd : Fin vfsMaxFd) :
    (fdFree fs table fd).2.2 = table ∨
      (fdFree fs table fd).2.2 = Function.update table fd FileDesc.empty := by
  unfold fdFree
  split_ifs
  · exact Or.inl rfl
  · exact Or.inr rfl

lemma refers_of_fdFree {fd' : Fin vfsMaxFd} (h : ((fdFree fs table fd).2.2 fd').refers i) :
    (table fd').refers i := by
  rcases fdFree_table fs table fd with he | he <;> rw [he] at h
  · exact h
  · by_cases hfd : fd' = fd
    · subst hfd
      rw [Function.update_self] at h
      exact absurd h.1 (by simp [FileDesc.empty])
    · rwa [Function.update_of_ne hfd] at h

lemma fdFree_self (h3 : 3 ≤ fd.val) : ((fdFree fs table fd).2.2 fd).inUse = false := by
  by_cases huse : (table fd).inUse = true
  · simp [fdFree, huse, not_lt.mpr h3, FileDesc.empty]
  · simp [fdFree, huse]

/-- What the loop over all descriptors of a process does, when it is through with `done`: it
keeps the slots in use that no descriptor refers to, and leaves no descriptor from 3 on. -/
structure FreedAll (fs : Files) (table : FdTable) (done : Fin vfsMaxFd → Prop)
    (s : Files × FdTable) : Prop where
  inUse : ∀ i, fs.sockInUse i = true → (∀ fd, ¬ (table fd).refers i) → s.1.sockInUse i = true
  desc : ∀ fd, s.2 fd = table fd ∨ (s.2 fd).inUse = false
  freed : ∀ fd, 3 ≤ fd.val → done fd → (s.2 fd).inUse = false

lemma FreedAll.step {done : Fin vfsMaxFd → Prop} {s : Files × FdTable}
    (h : FreedAll fs table done s) (fd : Fin vfsMaxFd) :
    FreedAll fs table (fun x => done x ∨ x = fd)
      (if 3 ≤ fd.val ∧ (s.2 fd).inUse then
        ((fdFree s.1 s.2 fd).2.1, (fdFree s.1 s.2 fd).2.2) else s) := by
  split_ifs with hc
  · refine ⟨fun i hi hno => ?_, fun x => ?_, fun x h3 hx => ?_⟩
    · have hdesc : s.2 fd = table fd := (h.desc fd).resolve_right (by simp [hc.2])
      exact fdFree_sockInUse (hdesc ▸ hno fd) (h.inUse i hi hno)
    · rcases fdFree_table s.1 s.2 fd with he | he <;> dsimp only <;> rw [he]
      · exact h.desc x
      · by_cases hx : x = fd
        · subst hx
          exact Or.inr (by simp [FileDesc.empty])
        · rw [Function.update_of_ne hx]
          exact h.desc x
    · by_cases hxf : x = fd
      · subst hxf
        exact fdFree_self h3
      · have hd := h.freed x h3 (hx.resolve_right hxf)
        rcases fdFree_table s.1 s.2 fd with he | he <;> simp [he, hxf, hd]
  · refine ⟨h.inUse, h.desc, fun x h3 hx => ?_⟩
    rcases hx with hx | rfl
    · exact h.freed x h3 hx
    · simpa using fun hu => hc ⟨h3, hu⟩

lemma fdFreeAll_freed (fs : Files) (table : FdTable) :
    FreedAll fs table (fun _ => True) (fdFreeAll fs table) := by
  -- the descriptors visited so far are those of a prefix of the list
  have key : ∀ (l : List (Fin vfsMaxFd)) (done : Fin vfsMaxFd → Prop) (s : Files × FdTable),
      FreedAll fs table done s → FreedAll fs table (fun fd => done fd ∨ fd ∈ l)
        (l.foldl (fun s fd => if 3 ≤ fd.val ∧ (s.2 fd).inUse then
          ((fdFree s.1 s.2 fd).2.1, (fdFree s.1 s.2 fd).2.2) else s) s) := by
    intro l
    induction l with
    | nil =>
      intro done s h
      exact ⟨h.inUse, h.desc, fun fd h3 hd => h.freed fd h3 (by simpa using hd)⟩
    | cons fd l ih =>
      intro done s h
      have hl := ih _ _ (h.step fd)
      refine ⟨hl.inUse, hl.desc, fun x h3 hx => hl.freed x h3 ?_⟩
      rw [List.mem_cons] at hx
      tauto
  have h := key (List.finRange vfsMaxFd) (fun _ => False) (fs, table)
    ⟨fun i hi _ => hi, fun _ => Or.inl rfl, fun _ _ h => h.elim⟩
  exact ⟨h.inUse, h.desc, fun fd h3 _ => h.freed fd h3 (Or.inr (List.mem_finRange fd))⟩

lemma cloneRef_sockInUse (fs : Files) (d : FileDesc) (i : Fin maxNetSockets) :
    (cloneRef fs d).sockInUse i = fs.sockInUse i := by
  unfold cloneRef
  split
  · exact modifyRefcount_sockInUse fs _ _ i
  · rfl

lemma fdTableClone_sockInUse (fs : Files) (src : FdTable) (i : Fin maxNetSockets) :
    (fdTableClone fs src).1.sockInUse i = fs.sockInUse i := by
  unfold fdTableClone
  refine List.foldlRecOn (motive := fun f : Files => f.sockInUse i = fs.sockInUse i) _ _ rfl
    fun f hf fd _ => ?_
  rw [cloneRef_sockInUse, hf]

/-- `socket_create` keeps the slots in use, and the slot it returns is in use. -/
lemma socketCreate_inUse (s : Sockets) (domain type protocol : ℤ) :
    (∀ i, (s.table i).inUse = true →
      (((socketCreate s domain type protocol).2.table i).inUse = true)) ∧
    ∀ i, (socketCreate s domain type protocol).1 = some i →
      ((socketCreate s domain type protocol).2.table i).inUse = true ∧
        (s.table i).inUse = false := by
  unfold socketCreate
  split_ifs with hbad hstream
  · exact ⟨fun i h => h, by simp⟩
  all_goals
    split
    · exact ⟨fun i h => h, by simp⟩
    rename_i j hj
    have hfree : (s.table j).inUse = false := by simpa using List.find?_some hj
    have hne : ∀ i, (s.table i).inUse = true → i ≠ j := by
      rintro i hi rfl
      simp [hfree] at hi
  · dsimp only
    split
    · refine ⟨fun i hi => ?_, by simp⟩
      simp [hne i hi, hi]
    · refine ⟨fun i hi => ?_, fun i hi => ?_⟩
      · simp [hne i hi, hi]
      · obtain rfl := Option.some.inj hi
        simp [hfree]
  · refine ⟨fun i hi => ?_, fun i hi => ?_⟩
    · simp [hne i hi, hi]
    · obtain rfl := Option.some.inj hi
      simp [hfree]

end Files

end Bangos.Fs

namespace Bangos.Proc

open Bangos.Mm Bangos.Fs Bangos.Net Bangos.Loader Bangos.Syscall

/-! ## The invariant -/

/-- A descriptor of an active process refers to a slot in use, and the descriptors 0, 1, 2
are never in use. -/
structure SocketInv (k : Kernel) : Prop where
  held : ∀ j fd i, (k.procs j).active = true → ((k.procs j).fdTable fd).refers i →
    k.files.sockInUse i = true
  low : ∀ j (fd : Fin vfsMaxFd), fd.val < 3 → ((k.procs j).fdTable fd).inUse = false

section Steps

variable {k k' : Kernel}

/-- What the invariant reads of a process. -/
def SameFds (p p' : Process) : Prop :=
  (p'.active = true → p.active = true) ∧ p'.fdTable = p.fdTable

lemma Kept.sameFds {p p' : Process} (h : Kept p p') : SameFds p p' := ⟨h.active, h.fdTable⟩

lemma SameFds.refl (p : Process) : SameFds p p := ⟨id, rfl⟩

lemma sameFds_setCurrent {p : Process} (h : SameFds k.current p) (j : Fin maxProcesses) :
    SameFds (k.procs j) ((k.setCurrent p).procs j) := by
  unfold Kernel.setCurrent Kernel.setProc
  by_cases hj : j = k.currentProcIdx
  · subst hj
    simpa [Kernel.current] using h
  · simp only [Function.update_of_ne hj]
    exact SameFds.refl _

/-- Steps that keep the descriptors and close no socket. -/
lemma SocketInv.of_same (h : SocketInv k) (hp : ∀ j, SameFds (k.procs j) (k'.procs j))
    (hf : ∀ i, k.files.sockInUse i = true → k'.files.sockInUse i = true) : SocketInv k' where
  held j fd i hact hr := by
    rw [(hp j).2] at hr
    exact hf i (h.held j fd i ((hp j).1 hact) hr)
  low j fd hfd := by
    rw [(hp j).2]
    exact h.low j fd hfd

/-- A new descriptor table in slot `c`, with other sockets around it. -/
lemma SocketInv.of_table {c : Fin maxProcesses} (h : SocketInv k)
    (hother : ∀ j, j ≠ c → SameFds (k.procs j) (k'.procs j))
    (hf : ∀ j fd i, j ≠ c → (k.procs j).active = true → ((k.procs j).fdTable fd).refers i →
      k'.files.sockInUse i = true)
    (hc : (k'.procs c).active = true → ∀ fd i, ((k'.procs c).fdTable fd).refers i →
      k'.files.sockInUse i = true)
    (hlow : ∀ fd : Fin vfsMaxFd, fd.val < 3 → ((k'.procs c).fdTable fd).inUse = false) :
    SocketInv k' where
  held j fd i hact hr := by
    by_cases hj : j = c
    · subst hj
      exact hc hact fd i hr
    · have hk := hother j hj
      rw [hk.2] at hr
      exact hf j fd i hj (hk.1 hact) hr
  low j fd hfd := by
    by_cases hj : j = c
    · subst hj
      exact hlow fd hfd
    · rw [(hother j hj).2]
      exact h.low j fd hfd

/-- Descriptor `fd` of slot `c` is the only one of an active process that refers to its
socket. -/
def OnlyRef (k : Kernel) (c : Fin maxProcesses) (fd : Fin vfsMaxFd) : Prop :=
  ∀ i, ((k.procs c).fdTable fd).refers i → ∀ j fd', (k.procs j).active = true →
    ((k.procs j).fdTable fd').refers i → j = c ∧ fd' = fd

/-- No other active process has a descriptor for a socket of process `c`. -/
def OnlyProc (k : Kernel) (c : Fin maxProcesses) : Prop :=
  ∀ fd i, ((k.procs c).fdTable fd).refers i → ∀ j fd', (k.procs j).active = true →
    ((k.procs j).fdTable fd').refers i → j = c

/-- No active process has a descriptor for the socket of descriptor `fd` of the running
process. -/
def NoRef (k : Kernel) (fd : Fin vfsMaxFd) : Prop :=
  ∀ i, (k.current.fdTable fd).refers i → ∀ j fd', (k.procs j).active = true →
    ¬ ((k.procs j).fdTable fd').refers i

instance (k : Kernel) (c : Fin maxProcesses) (fd : Fin vfsMaxFd) : Decidable (OnlyRef k c fd) :=
  inferInstanceAs (Decidable (∀ _, _))

instance (k : Kernel) (c : Fin maxProcesses) : Decidable (OnlyProc k c) :=
  inferInstanceAs (Decidable (∀ _, _))

instance (k : Kernel) (fd : Fin vfsMaxFd) : Decidable (NoRef k fd) :=
  inferInstanceAs (Decidable (∀ _, _))

/-! ## Descriptors that go away -/

lemma sysClose_inv (h : SocketInv k) (fd : ℤ)
    (hsafe : ∀ hfd : 0 ≤ fd ∧ fd.toNat < vfsMaxFd, OnlyRef k k.currentProcIdx ⟨fd.toNat, fd_lt hfd⟩) :
    SocketInv (fileCall k (sysClose k.files k.current.fdTable fd).2) := by
  unfold sysClose
  split_ifs with hfd hlow
  · exact h.of_same (sameFds_setCurrent ⟨id, rfl⟩) fun _ hi => hi
  · have honly := hsafe hfd
    set c := k.currentProcIdx with hc
    set x : Fin vfsMaxFd := ⟨fd.toNat, fd_lt hfd⟩ with hx
    have hcur : ∀ y, ((fileCall k (fdFree k.files k.current.fdTable x).2).procs c).fdTable y =
        (fdFree k.files k.current.fdTable x).2.2 y := by
      intro y
      simp [fileCall, Kernel.setCurrent, Kernel.setProc, hc]
    refine h.of_table (c := c) (fun j hj => ?_) (fun j y i hj hact hr => ?_)
      (fun hact y i hr => ?_) fun y hy => ?_
    · simp only [fileCall, Kernel.setCurrent, Kernel.setProc, ← hc, Function.update_of_ne hj]
      exact SameFds.refl _
    · exact fdFree_sockInUse (fun hr' => hj (honly i hr' j y hact hr).1) (h.held j y i hact hr)
    · rw [hcur] at hr
      have hr' := refers_of_fdFree hr
      have hact' : (k.procs c).active = true := by
        simpa [fileCall, Kernel.setCurrent, Kernel.setProc, hc, Kernel.current] using hact
      refine fdFree_sockInUse (fun hrx => ?_) (h.held c y i hact' hr')
      -- the descriptor freed was the only reference, and it is not in use any more
      obtain rfl := (honly i hrx c y hact' hr').2
      have h3 : 3 ≤ x.val := by
        rw [hx]
        dsimp only
        omega
      have hfree : ((fdFree k.files k.current.fdTable x).2.2 x).inUse = false := fdFree_self h3
      rw [hr.1] at hfree
      exact absurd hfree (by simp)
    · rw [hcur]
      rcases fdFree_table k.files k.current.fdTable x with he | he <;> rw [he]
      · exact h.low c y hy
      · by_cases hyx : y = x
        · subst hyx
          simp [FileDesc.empty]
        · rw [Function.update_of_ne hyx]
          exact h.low c y hy
  · exact h.of_same (sameFds_setCurrent ⟨id, rfl⟩) fun _ hi => hi

/-- All descriptors of process `c` from 3 on go away. -/
lemma SocketInv.free_proc {c : Fin maxProcesses} (h : SocketInv k) (honly : OnlyProc k c)
    (hfiles : k'.files = (fdFreeAll k.files (k.procs c).fdTable).1)
    (htable : (k'.procs c).fdTable = (fdFreeAll k.files (k.procs c).fdTable).2)
    (hother : ∀ j, j ≠ c → SameFds (k.procs j) (k'.procs j)) : SocketInv k' := by
  have hall := fdFreeAll_freed k.files (k.procs c).fdTable
  have hnone : ∀ fd, ((k'.procs c).fdTable fd).inUse = false := by
    intro fd
    rw [htable]
    by_cases h3 : 3 ≤ fd.val
    · exact hall.freed fd h3 trivial
    · rcases hall.desc fd with he | he
      · rw [he]
        exact h.low c fd (by omega)
      · exact he
  refine h.of_table hother (fun j fd i hj hact hr => ?_) (fun _ fd i hr => ?_) fun fd _ => hnone fd
  · rw [hfiles]
    exact hall.inUse i (h.held j fd i hact hr) fun fd' hr' => hj (honly fd' i hr' j fd hact hr)
  · exact absurd (hr.1.symm.trans (hnone fd)) (by simp)

lemma processExit_socketInv (h : SocketInv k) (code : ℤ) (honly : OnlyProc k k.currentProcIdx) :
    SocketInv (processExit k code) := by
  refine h.free_proc honly (processExit_globals k code).files ?_ fun j hj => ?_
  · rw [(processExit_kept k code _).fdTable]
    simp [exitFds, Kernel.setCurrent, Kernel.setProc, Kernel.current]
  · have hk := processExit_kept k code j
    simp only [exitFds, Kernel.setCurrent, Kernel.setProc, Function.update_of_ne hj] at hk
    exact hk.sameFds

lemma processKill_socketInv (h : SocketInv k) {pid : ℤ} (sig : ℤ)
    (honly : ∀ i, killSlot k.procs pid = some i → OnlyProc k i) :
    SocketInv (processKill k pid sig).2 := by
  unfold processKill
  split
  · exact h
  · rename_i c hc
    refine h.free_proc (honly c hc) rfl ?_ fun j hj => ?_
    · dsimp only
      rw [(wakeParent_kept _ _ c).fdTable]
      simp
    · have hk := (wakeParent_kept (Function.update k.procs c
        { k.procs c with
          exited := true, exitCode := sig, state := .zombie, active := false,
          fdTable := (fdFreeAll k.files (k.procs c).fdTable).2 }) (k.procs c).ppid j).sameFds
      rwa [Function.update_of_ne hj] at hk

lemma sysShutdown_socketInv (h : SocketInv k) (fd : ℤ)
    (hsafe : ∀ hfd : 0 ≤ fd ∧ fd.toNat < vfsMaxFd, NoRef k ⟨fd.toNat, fd_lt hfd⟩) :
    SocketInv { k with files := (sysShutdown k.files k.current.fdTable fd).2 } := by
  unfold sysShutdown
  split_ifs with hfd
  · dsimp only
    split_ifs with huse
    · split
      · exact h
      rename_i n hn
      split
      · rename_i i hi
        have hni : n = .sock i := by
          cases n with
          | sock j =>
            simp only [socketFromVfsNode] at hi
            split_ifs at hi
            rw [Option.some.inj hi]
          | file id => cases hi
        refine ⟨fun j fd' i' hact hr => ?_, h.low⟩
        have hne : i' ≠ i := by
          rintro rfl
          exact hsafe hfd i' ⟨huse, hni ▸ hn⟩ j fd' hact hr
        exact (socketClose_inUse_of_ne k.files.sockets hne).trans (h.held j fd' i' hact hr)
      · exact h
    · exact h
  · exact h

/-! ## Descriptors that are made -/

lemma sysSocket_socketInv (h : SocketInv k) (domain type protocol : ℤ) :
    SocketInv (fileCall k (sysSocket k.files k.current.fdTable domain type protocol).2) := by
  have hsame : SocketInv (fileCall k (k.files, k.current.fdTable)) :=
    h.of_same (sameFds_setCurrent ⟨id, rfl⟩) fun _ hi => hi
  obtain ⟨hkeep, hnew⟩ := socketCreate_inUse k.files.sockets domain type protocol
  unfold sysSocket
  split_ifs
  · exact hsame
  · exact hsame
  split
  · rename_i sockets hcreate
    rw [hcreate] at hkeep
    exact h.of_same (sameFds_setCurrent ⟨id, rfl⟩) hkeep
  · rename_i i sockets hcreate
    rw [hcreate] at hkeep hnew
    obtain ⟨hi, hfree⟩ := hnew i rfl
    split
    · -- no descriptor is left: the new socket, which nothing refers to, is closed again
      rename_i table hfd
      have htable : table = k.current.fdTable := by
        unfold fdAlloc at hfd
        split at hfd
        · cases hfd
        · exact (Prod.mk.inj hfd).2.symm
      subst htable
      refine ⟨fun j fd i' hact hr => ?_, fun j => ?_⟩
      · have hs := sameFds_setCurrent (k := k) (p := { k.current with fdTable := k.current.fdTable })
          ⟨id, rfl⟩ j
        rw [show ((fileCall k ({ k.files with sockets := socketClose sockets i },
          k.current.fdTable)).procs j).fdTable = (k.procs j).fdTable from hs.2] at hr
        have hi' := h.held j fd i' (hs.1 hact) hr
        have hne : i' ≠ i := by
          rintro rfl
          exact absurd (hfree.symm.trans hi') (by simp)
        exact (socketClose_inUse_of_ne sockets hne).trans (hkeep i' hi')
      · intro fd hfd'
        exact hsame.low j fd hfd'
    · rename_i fd table hfd
      obtain ⟨h3, htable⟩ : 3 ≤ fd.val ∧ table = Function.update k.current.fdTable fd
          ⟨some (.sock i), 0, 0, true⟩ := by
        unfold fdAlloc at hfd
        split at hfd
        · rename_i x hx
          have hx3 := List.find?_some hx
          simp only [Bool.and_eq_true, decide_eq_true_eq] at hx3
          obtain ⟨h₁, h₂⟩ := Prod.mk.inj hfd
          obtain rfl := Option.some.inj h₁
          exact ⟨hx3.1, by rw [← h₂]; rfl⟩
        · cases hfd
      refine h.of_table (c := k.currentProcIdx) (fun j hj => ?_)
        (fun j y i' _ hact hr => hkeep i' (h.held j y i' hact hr)) (fun hact y i' hr => ?_)
        fun y hy => ?_
      · simp only [fileCall, Kernel.setCurrent, Kernel.setProc, Function.update_of_ne hj]
        exact SameFds.refl _
      · simp only [fileCall, Kernel.setCurrent, Kernel.setProc, Function.update_self, htable]
          at hact hr
        by_cases hy : y = fd
        · subst hy
          rw [Function.update_self] at hr
          obtain rfl : i = i' := by simpa using hr.2
          exact hi
        · rw [Function.update_of_ne hy] at hr
          exact hkeep i' (h.held k.currentProcIdx y i' hact hr)
      · simp only [fileCall, Kernel.setCurrent, Kernel.setProc, Function.update_self, htable]
        rw [Function.update_of_ne (by rintro rfl; omega)]
        exact h.low k.currentProcIdx y hy

/-- A process made in slot `c` whose descriptors are those of the running process, or
none. -/
lemma SocketInv.new_proc {c : Fin maxProcesses} {p : Process} (h : SocketInv k)
    (hprocs : k'.procs = Function.update k.procs c p)
    (hfiles : ∀ i, k'.files.sockInUse i = k.files.sockInUse i)
    (hp : ∀ fd i, (p.fdTable fd).refers i → k.files.sockInUse i = true)
    (hlow : ∀ fd : Fin vfsMaxFd, fd.val < 3 → (p.fdTable fd).inUse = false) : SocketInv k' := by
  have hc : k'.procs c = p := by rw [hprocs, Function.update_self]
  refine h.of_table (c := c) (fun j hj => ?_) (fun j fd i _ hact hr => ?_) (fun _ fd i hr => ?_)
    fun fd hfd => ?_
  · rw [hprocs, Function.update_of_ne hj]
    exact SameFds.refl _
  · rw [hfiles]
    exact h.held j fd i hact hr
  · rw [hfiles]
    exact hp fd i (hc ▸ hr)
  · rw [hc]
    exact hlow fd hfd

/-- The slot of a new process is not that of an active one. -/
lemma parentView_of_active {c : Fin maxProcesses} (hc : forkSlot k.procs = some c)
    (hact : k.current.active = true) : parentView k c = k.current := by
  have hfree := List.find?_some hc
  simp only [Bool.and_eq_true, decide_eq_true_eq, Bool.not_eq_true'] at hfree
  unfold parentView
  rw [if_neg]
  rintro rfl
  exact absurd (hfree.2.symm.trans hact) (by simp)

lemma processFork_socketInv (h : SocketInv k) (frame : ContextFrame)
    (hact : k.current.active = true) : SocketInv (processFork k frame).2 := by
  unfold processFork
  split
  · exact h
  · rename_i c hc
    refine h.new_proc (c := c) rfl (fun i => fdTableClone_sockInUse k.files _ i)
      (fun fd i hr => ?_) fun fd hfd => ?_
    · rw [parentView_of_active hc hact] at hr
      exact h.held k.currentProcIdx fd i hact hr
    · rw [parentView_of_active hc hact]
      exact h.low k.currentProcIdx fd hfd

lemma processClone_socketInv (h : SocketInv k) (flags childStack ptid ctid newtls : ℕ)
    (frame : ContextFrame) (hact : k.current.active = true) :
    SocketInv (processClone k flags childStack ptid ctid newtls frame).2 := by
  unfold processClone
  split_ifs
  · unfold cloneThread
    split
    · exact h
    · rename_i c hc
      refine h.new_proc (c := c) rfl (fun i => fdTableClone_sockInUse k.files _ i)
        (fun fd i hr => ?_) fun fd hfd => ?_
      · rw [parentView_of_active hc hact] at hr
        exact h.held k.currentProcIdx fd i hact hr
      · rw [parentView_of_active hc hact]
        exact h.low k.currentProcIdx fd hfd
  · exact processFork_socketInv h frame hact

lemma processCreateFromElf_socketInv (h : SocketInv k) (info : ElfInfo) (name : List UInt8) :
    SocketInv (processCreateFromElf k info name).2 := by
  unfold processCreateFromElf
  split
  · exact h
  · exact h.new_proc rfl (fun _ => rfl) (fun _ _ hr => absurd hr.1 (by simp [Process.zero,
      fdTableInit, FileDesc.empty])) fun _ _ => rfl

lemma processExecve_socketInv (h : SocketInv k) (path argv0 : Option (List UInt8)) :
    SocketInv (processExecve k path argv0).2 := by
  refine h.of_same (fun j => ?_) fun i hi => by rwa [(processExecve_globals k path argv0).files]
  by_cases hj : j = k.currentProcIdx
  · subst hj
    have hc := processExecve_current k path argv0
    exact ⟨fun ha => hc.active ▸ ha, hc.fdTable⟩
  · rw [processExecve_procs_of_ne path argv0 hj]
    exact SameFds.refl _

/-! ## Runs -/

/-- The condition on a step under which no socket is torn down while it is referred to: a
descriptor that is freed is the last one for its socket, the socket of a `SYS_SHUTDOWN` has no
descriptor, and a process that has been killed no longer makes others. -/
def SocketSafe (k : Kernel) : KEvent → Prop
  | .call (.close fd) =>
    ∀ hfd : 0 ≤ fd ∧ fd.toNat < vfsMaxFd, OnlyRef k k.currentProcIdx ⟨fd.toNat, fd_lt hfd⟩
  | .call (.exit _) => OnlyProc k k.currentProcIdx
  | .call (.kill pid _) => ∀ i, killSlot k.procs pid = some i → OnlyProc k i
  | .call (.shutdown fd) => ∀ hfd : 0 ≤ fd ∧ fd.toNat < vfsMaxFd, NoRef k ⟨fd.toNat, fd_lt hfd⟩
  | .call (.fork _) => k.current.active = true
  | .call (.clone _ _ _ _ _ _) => k.current.active = true
  | .pageFault faultAddr errorCode =>
    FaultRefused k faultAddr errorCode → OnlyProc k k.currentProcIdx
  | _ => True

lemma doSyscall_socketInv (h : SocketInv k) (c : Call) (hsafe : SocketSafe k (.call c)) :
    SocketInv (doSyscall k c) := by
  cases c with
  | futexWait uaddr val word =>
    refine h.of_same (fun j => (futexWait_kept k uaddr val word j).sameFds) fun _ hi => ?_
    rwa [doSyscall, (futexWait_globals k uaddr val word).files]
  | futexWake uaddr count =>
    exact h.of_same (fun j => (futexWake_kept k.procs uaddr count j).sameFds) fun _ hi => hi
  | nanosleep sec nsec =>
    refine h.of_same (fun j => (sysNanosleep_kept k sec nsec j).sameFds) fun _ hi => ?_
    rwa [doSyscall, (sysNanosleep_globals k sec nsec).files]
  | fork frame => exact processFork_socketInv h frame hsafe
  | clone flags childStack ptid ctid newtls frame =>
    exact processClone_socketInv h flags childStack ptid ctid newtls frame hsafe
  | execve path argv0 => exact processExecve_socketInv h path argv0
  | exit code => exact processExit_socketInv h code hsafe
  | kill pid sig => exact processKill_socketInv h sig hsafe
  | wait4 pid statusPtr =>
    refine h.of_same (fun j => ?_) fun _ hi => ?_
    · rw [doSyscall, wait4Call_procs]
      exact (processWait4_kept k pid statusPtr j).sameFds
    · rwa [doSyscall, (wait4Call_globals k pid statusPtr).files]
  | setTidAddress addr => exact h.of_same (sameFds_setCurrent ⟨id, rfl⟩) fun _ hi => hi
  | socket domain type protocol => exact sysSocket_socketInv h domain type protocol
  | close fd => exact sysClose_inv h fd hsafe
  | shutdown fd => exact sysShutdown_socketInv h fd hsafe
  | mmap addr len prot flags => exact h.of_same (sameFds_setCurrent ⟨id, rfl⟩) fun _ hi => hi
  | munmap addr len => exact h.of_same (sameFds_setCurrent ⟨id, rfl⟩) fun _ hi => hi
  | mprotect addr len prot => exact h.of_same (sameFds_setCurrent ⟨id, rfl⟩) fun _ hi => hi
  | brk newBrk => exact h.of_same (fun _ => SameFds.refl _) fun _ hi => hi

/-- A step that meets its condition keeps the invariant. -/
lemma kstep_socketInv (k : Kernel) (e : KEvent) (h : SocketInv k) (hsafe : SocketSafe k e) :
    SocketInv (kstep k e) := by
  unfold kstep
  by_cases hhalt : k.halted = true
  · rwa [if_pos hhalt]
  rw [if_neg hhalt]
  cases e with
  | tick frame =>
    refine h.of_same (fun j => (schedulerTick_kept k frame j).sameFds) fun _ hi => ?_
    rwa [(schedulerTick_globals k frame).files]
  | resume =>
    refine h.of_same (fun j => (resume_kept k j).sameFds) fun _ hi => ?_
    rwa [(resume_globals k).files]
  | create info name => exact processCreateFromElf_socketInv h info name
  | pageFault faultAddr errorCode =>
    dsimp only
    split_ifs
    · rcases handleFault_cases k faultAddr errorCode with he | ⟨hr, he⟩ | he
      · rw [he]
        exact h.of_same (fun _ => SameFds.refl _) fun _ hi => hi
      · rw [he]
        exact doSyscall_socketInv h (.exit (-11)) (hsafe hr)
      · rw [he]
        exact h.of_same (fun _ => SameFds.refl _) fun _ hi => hi
    · exact h
  | call c =>
    dsimp only
    split_ifs
    · exact doSyscall_socketInv h c hsafe
    · exact h

end Steps

lemma boot_socketInv (mem : Mem) (files : Files) (ramdisk : RamdiskAt) (info : ElfInfo)
    (name : List UInt8) : SocketInv (boot mem files ramdisk info name) := by
  have h0 : SocketInv (processInit mem files ramdisk) :=
    ⟨fun _ _ _ hact => absurd hact (by simp [processInit, Process.zero]), fun _ _ _ => rfl⟩
  exact (processCreateFromElf_socketInv h0 info name).of_same
    (fun j => (processJumpToUser_kept _ 0 j).sameFds) fun _ hi => hi

/-- **Sockets live as long as descriptors refer to them** in a run from the start of the
first program, as long as every descriptor that is freed is the last one for its socket, no
socket with a descriptor is shut down, and only active processes fork: a slot of the socket
table that is free, in particular the one the next socket will take, has no descriptor of an
active process. -/
theorem no_descriptor_of_free_slot (mem : Mem) (files : Files) (ramdisk : RamdiskAt)
    (info : ElfInfo) (name : List UInt8) (es : List KEvent)
    (h : Runs.StepsMeet kstep SocketSafe (boot mem files ramdisk info name) es)
    (i : Fin maxNetSockets) (j : Fin maxProcesses) (fd : Fin vfsMaxFd)
    (hact : ((Runs.runFrom kstep (boot mem files ramdisk info name) es).procs j).active = true)
    (hfree : (Runs.runFrom kstep (boot mem files ramdisk info name) es).files.sockInUse i =
        false ∨
      freeSlot (Runs.runFrom kstep (boot mem files ramdisk info name) es).files.sockets =
        some i) :
    ¬ (((Runs.runFrom kstep (boot mem files ramdisk info name) es).procs j).fdTable fd).refers
      i := by
  intro hr
  have hinv := Runs.invariant_runFrom kstep_socketInv (boot_socketInv mem files ramdisk info name) h
  have huse := hinv.held j fd i hact hr
  rcases hfree with hfree | hfree
  · exact absurd (huse.symm.trans hfree) (by simp)
  · have := List.find?_some hfree
    simp only [Bool.not_eq_true'] at this
    exact absurd (huse.symm.trans this) (by simp)

/-- A process opens a socket and closes it again. -/
def openCloseEvents : List KEvent := [.call (.socket 2 1 0), .call (.close 3)]

theorem no_descriptor_of_free_slot_openClose :
    ¬ (((Runs.runFrom kstep freshKernel openCloseEvents).procs 0).fdTable 3).refers 0 :=
  no_descriptor_of_free_slot _ _ _ _ _ openCloseEvents
    ⟨trivial, by
      show ∀ hfd : (0 : ℤ) ≤ 3 ∧ (3 : ℤ).toNat < vfsMaxFd, _
      decide +kernel, trivial⟩ 0 0 3 (by decide +kernel) (Or.inl (by decide +kernel))

/-- A process opens a socket, forks and closes its own descriptor. -/
def openForkCloseEvents : List KEvent :=
  [.call (.socket 2 1 0), .call (.fork someFrame), .call (.close 3)]

/-- The socket is gone, though the child still has it open: `fd_free` closes the node with a
reference left. -/
theorem socket_freed_under_child :
    ((Runs.runFrom kstep freshKernel openForkCloseEvents).procs 1).active = true ∧
      (((Runs.runFrom kstep freshKernel openForkCloseEvents).procs 1).fdTable 3).refers 0 ∧
      (Runs.runFrom kstep freshKernel openForkCloseEvents).files.sockInUse 0 = false := by
  decide +kernel

end Bangos.Proc
