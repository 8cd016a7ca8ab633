import Mathlib.Algebra.BigOperators.Fin
import Bangos.Process.SocketLifetime
import Bangos.Process.Slots

/-!
# Reference counts and descriptors

The reference count of a node should be the number of descriptors in use, over all active
processes, that refer to it (`RefsExact`).  A free slot of the socket table is no node: what is left
in its count is forgotten when the slot is taken, and the kernel's own tests leave a count there
before the first program starts.  The operations on descriptors keep the two in step; processes that
end with their parent keep their references, a socket for which no descriptor is left keeps its first
one, and a socket slot that is taken again forgets its old ones.
-/

namespace Bangos

/-- A sum of values after one of them has changed. -/
lemma sum_update_add {ι α : Type*} [Fintype ι] [DecidableEq ι] (g : α → ℤ) (f : ι → α) (i : ι)
    (a : α) : ∑ j, g (Function.update f i a j) = ∑ j, g (f j) - g (f i) + g a := by
  have hf : (fun j => g (Function.update f i a j)) =
      Function.update (fun j => g (f j)) i (g a) := by
    funext j
    by_cases hj : j = i
    · subst hj
      simp
    · simp [hj]
  rw [hf, Finset.sum_update_of_mem (Finset.mem_univ i), Finset.sdiff_singleton_eq_erase,
    ← Finset.add_sum_erase _ _ (Finset.mem_univ i)]
  ring

end Bangos

namespace Bangos.Fs

open Bangos.Net

variable {fs : Files} {table : FdTable} {n n' : NodeRef} {fd : Fin vfsMaxFd}

/-- The reference count of a node. -/
def Files.refcount (fs : Files) : NodeRef → ℤ
  | .sock i => (fs.sockets.table i).refcount
  | .file id => fs.fileRefs id

/-- The node is that of a free slot of the socket table. -/
def Files.vacant (fs : Files) : NodeRef → Prop
  | .sock i => fs.sockInUse i = false
  | .file _ => False

instance (fs : Files) : DecidablePred fs.vacant
  | .sock _ => inferInstanceAs (Decidable (_ = _))
  | .file _ => inferInstanceAs (Decidable False)

/-- The descriptor is in use and refers to the node. -/
def FileDesc.holds (d : FileDesc) (n : NodeRef) : Prop := d.inUse = true ∧ d.node = some n

instance (d : FileDesc) (n : NodeRef) : Decidable (d.holds n) :=
  inferInstanceAs (Decidable (_ ∧ _))

/-- The references of one descriptor. -/
def descRefs (n : NodeRef) (d : FileDesc) : ℤ := if d.holds n then 1 else 0

/-- The references of a table. -/
def tableRefs (table : FdTable) (n : NodeRef) : ℤ := ∑ fd, descRefs n (table fd)

lemma descRefs_of_unused {d : FileDesc} (h : d.inUse = false) : descRefs n d = 0 :=
  if_neg fun hh => absurd (h.symm.trans hh.1) (by simp)

lemma descRefs_of_null {d : FileDesc} (h : d.node = none) : descRefs n d = 0 :=
  if_neg fun hh => absurd (h.symm.trans hh.2) (by simp)

lemma descRefs_of_node {d : FileDesc} (huse : d.inUse = true) (h : d.node = some n') :
    descRefs n d = if n = n' then 1 else 0 := by
  unfold descRefs
  refine if_congr ⟨fun hh => ?_, fun he => ⟨huse, he ▸ h⟩⟩ rfl rfl
  exact Option.some.inj (hh.2.symm.trans h)

lemma descRefs_nonneg (n : NodeRef) (d : FileDesc) : 0 ≤ descRefs n d := by
  unfold descRefs
  split_ifs <;> decide

lemma tableRefs_nonneg (table : FdTable) (n : NodeRef) : 0 ≤ tableRefs table n :=
  Finset.sum_nonneg fun _ _ => descRefs_nonneg n _

lemma tableRefs_of_unused (h : ∀ fd, (table fd).inUse = false) (n : NodeRef) :
    tableRefs table n = 0 :=
  Finset.sum_eq_zero fun fd _ => descRefs_of_unused (h fd)

lemma descRefs_le_tableRefs (table : FdTable) (fd : Fin vfsMaxFd) (n : NodeRef) :
    descRefs n (table fd) ≤ tableRefs table n :=
  Finset.single_le_sum (fun fd _ => descRefs_nonneg n (table fd)) (Finset.mem_univ fd)

/-- Storing a descriptor trades the references of the old one for those of the new one. -/
lemma tableRefs_update (table : FdTable) (fd : Fin vfsMaxFd) (d : FileDesc) (n : NodeRef) :
    tableRefs (Function.update table fd d) n =
      tableRefs table n - descRefs n (table fd) + descRefs n d :=
  sum_update_add (descRefs n) table fd d

/-! ## The operations -/

/-- Only the count of the node itself changes. -/
lemma refcount_modifyRefcount (fs : Files) (f : ℤ → ℤ) (n n' : NodeRef) :
    (modifyRefcount fs f n).refcount n' =
      if n' = n then f (fs.refcount n) else fs.refcount n' := by
  cases n with
  | sock i =>
    cases n' with
    | sock j =>
      by_cases hij : j = i
      · subst hij
        simp [modifyRefcount, Files.refcount]
      · simp [modifyRefcount, Files.refcount, hij]
    | file id => simp [modifyRefcount, Files.refcount]
  | file id =>
    cases n' with
    | sock j => simp [modifyRefcount, Files.refcount]
    | file id' =>
      by_cases hid : id' = id
      · subst hid
        simp [modifyRefcount, Files.refcount]
      · simp [modifyRefcount, Files.refcount, hid]

/-- `socket_close` leaves the count to `fd_free`. -/
lemma refcount_socketClose (s : Sockets) (i j : Fin maxNetSockets) :
    ((socketClose s i).table j).refcount = (s.table j).refcount := by
  unfold socketClose
  dsimp only
  split_ifs
  · rfl
  split <;>
  · by_cases hj : j = i
    · subst hj
      simp
    · simp [hj]

/-- Closing a socket frees its slot and leaves the counts alone. -/
lemma refcount_nodeClose (fs : Files) (n n' : NodeRef) :
    (nodeClose fs n).refcount n' = fs.refcount n' := by
  cases n with
  | sock i =>
    dsimp only [nodeClose]
    split_ifs
    · cases n' with
      | sock j => exact refcount_socketClose fs.sockets i j
      | file id => rfl
    · rfl
  | file id => rfl

/-- A free slot stays free when a socket is closed. -/
lemma socketClose_free {s : Sockets} {i : Fin maxNetSockets} (h : (s.table i).inUse = false)
    (j : Fin maxNetSockets) : ((socketClose s j).table i).inUse = false := by
  by_cases hij : i = j
  · subst hij
    unfold socketClose
    simp [h]
  · rw [socketClose_inUse_of_ne s hij, h]

/-- Counting does not take a free slot. -/
lemma vacant_modifyRefcount (f : ℤ → ℤ) (n' : NodeRef) (h : fs.vacant n) :
    (modifyRefcount fs f n').vacant n := by
  cases n with
  | sock i => exact (modifyRefcount_sockInUse fs f n' i).trans h
  | file id => exact h

/-- A free slot stays free when another node is closed. -/
lemma vacant_nodeClose (n' : NodeRef) (h : fs.vacant n) : (nodeClose fs n').vacant n := by
  cases n with
  | file id => exact h
  | sock i =>
    cases n' with
    | file id => exact h
    | sock j =>
      dsimp only [nodeClose]
      split_ifs
      · exact socketClose_free h j
      · exact h

lemma vacant_fdFree (fd : Fin vfsMaxFd) (h : fs.vacant n) : (fdFree fs table fd).2.1.vacant n := by
  unfold fdFree
  split_ifs
  · exact h
  · dsimp only
    split
    · exact vacant_modifyRefcount _ _ (vacant_nodeClose _ h)
    · exact h

lemma vacant_fdFreeAll (h : fs.vacant n) : (fdFreeAll fs table).1.vacant n := by
  unfold fdFreeAll
  refine List.foldlRecOn (motive := fun s : Files × FdTable => s.1.vacant n) _ _ h fun s hs fd _ => ?_
  split_ifs
  · exact vacant_fdFree fd hs
  · exact hs

lemma vacant_fdTableClone (src : FdTable) (h : fs.vacant n) : (fdTableClone fs src).1.vacant n := by
  cases n with
  | sock i => exact (fdTableClone_sockInUse fs src i).trans h
  | file id => exact h

/-- Freeing a descriptor adds no reference. -/
lemma tableRefs_fdFree_le (fs : Files) (table : FdTable) (fd : Fin vfsMaxFd) (n : NodeRef) :
    tableRefs (fdFree fs table fd).2.2 n ≤ tableRefs table n := by
  rcases fdFree_table fs table fd with he | he <;> rw [he]
  rw [tableRefs_update, descRefs_of_unused (d := FileDesc.empty) rfl]
  have := descRefs_nonneg n (table fd)
  omega

/-- A descriptor that is freed gives its reference back. -/
lemma fdFree_refs (hle : tableRefs table n ≤ fs.refcount n) (fd : Fin vfsMaxFd) :
    (fdFree fs table fd).2.1.refcount n - tableRefs (fdFree fs table fd).2.2 n =
      fs.refcount n - tableRefs table n := by
  unfold fdFree
  split_ifs with hbad
  · rfl
  have huse : (table fd).inUse = true := by
    rw [not_or] at hbad
    simpa using hbad.2
  dsimp only
  rw [tableRefs_update, descRefs_of_unused (d := FileDesc.empty) rfl]
  cases hn : (table fd).node with
  | none =>
    rw [descRefs_of_null hn]
    simp
  | some n' =>
    have hpos := descRefs_le_tableRefs table fd n
    dsimp only
    rw [refcount_modifyRefcount, refcount_nodeClose, refcount_nodeClose]
    rw [descRefs_of_node huse hn] at hpos ⊢
    by_cases he : n = n'
    · subst he
      rw [if_pos rfl] at hpos ⊢
      rw [if_pos rfl, if_pos (by omega)]
      ring
    · rw [if_neg he, if_neg he]
      ring

/-- Freeing all descriptors takes from the count what the table has held. -/
lemma fdFreeAll_refs (hle : tableRefs table n ≤ fs.refcount n) :
    (fdFreeAll fs table).1.refcount n - tableRefs (fdFreeAll fs table).2 n =
      fs.refcount n - tableRefs table n := by
  unfold fdFreeAll
  refine List.foldlRecOn (motive := fun s : Files × FdTable =>
    s.1.refcount n - tableRefs s.2 n = fs.refcount n - tableRefs table n) _ _ rfl
    fun s hs fd _ => ?_
  split_ifs
  · exact (fdFree_refs (by omega) fd).trans hs
  · exact hs

/-- Copying a descriptor counts its reference once more. -/
lemma refcount_cloneRef (fs : Files) (d : FileDesc) (n : NodeRef) :
    (cloneRef fs d).refcount n = fs.refcount n + descRefs n d := by
  unfold cloneRef
  split
  · rename_i n' huse hn
    rw [refcount_modifyRefcount, descRefs_of_node huse hn]
    split_ifs with he
    · rw [he]
    · rw [add_zero]
  · rename_i hno
    have h0 : descRefs n d = 0 := if_neg fun hh => hno n hh.1 hh.2
    rw [h0, add_zero]

/-- A copied table brings as many references as it has descriptors. -/
lemma refcount_fdTableClone (fs : Files) (src : FdTable) (n : NodeRef) :
    (fdTableClone fs src).1.refcount n = fs.refcount n + tableRefs src n := by
  have key : ∀ (l : List (Fin vfsMaxFd)) (fs : Files),
      (l.foldl (fun fs i => cloneRef fs (src i)) fs).refcount n =
        fs.refcount n + (l.map fun i => descRefs n (src i)).sum := by
    intro l
    induction l with
    | nil => simp
    | cons i l ih =>
      intro fs
      rw [List.foldl_cons, ih, refcount_cloneRef, List.map_cons, List.sum_cons]
      ring
  unfold fdTableClone tableRefs
  rw [key, ← List.ofFn_eq_map, List.sum_ofFn]

/-- `fd_alloc` adds a reference to the table when it finds a descriptor. -/
lemma fdAlloc_refs (table : FdTable) (node : NodeRef) (size flags : ℕ) (n : NodeRef) :
    tableRefs (fdAlloc table node size flags).2 n =
      tableRefs table n +
        if (fdAlloc table node size flags).1.isSome ∧ n = node then 1 else 0 := by
  unfold fdAlloc
  split
  · rename_i i hi
    have hfree := List.find?_some hi
    simp only [Bool.and_eq_true, Bool.not_eq_true'] at hfree
    dsimp only
    rw [tableRefs_update, descRefs_of_unused hfree.2, descRefs_of_node rfl rfl]
    simp
  · simp

end Bangos.Fs

namespace Bangos.Proc

open Bangos.Mm Bangos.Fs Bangos.Net Bangos.Loader Bangos.Syscall

variable {k k' : Kernel} {c j : Fin maxProcesses} {p p' : Process} {n : NodeRef}

/-- The references of a process; one that is not active has none. -/
def procRefs (n : NodeRef) (p : Process) : ℤ := if p.active then tableRefs p.fdTable n else 0

/-- The descriptors in use, over all active processes, that refer to the node. -/
def nodeRefs (k : Kernel) (n : NodeRef) : ℤ := ∑ j, procRefs n (k.procs j)

/-- **The reference counts are exact**, for all files and all sockets in use. -/
def RefsExact (k : Kernel) : Prop := ∀ n, ¬ k.files.vacant n → k.files.refcount n = nodeRefs k n

/-- The count is exact, or is what is left in a free slot to which nothing refers. -/
def Counted (k : Kernel) (n : NodeRef) : Prop :=
  k.files.refcount n = nodeRefs k n ∨
    k.files.vacant n ∧ nodeRefs k n = 0 ∧ 0 ≤ k.files.refcount n

lemma procRefs_nonneg (n : NodeRef) (p : Process) : 0 ≤ procRefs n p := by
  unfold procRefs
  split_ifs
  · exact tableRefs_nonneg _ n
  · exact le_rfl

/-- One process holds no more references than all of them. -/
lemma procRefs_le_nodeRefs (k : Kernel) (j : Fin maxProcesses) (n : NodeRef) :
    procRefs n (k.procs j) ≤ nodeRefs k n :=
  Finset.single_le_sum (f := fun j => procRefs n (k.procs j)) (fun _ _ => procRefs_nonneg n _)
    (Finset.mem_univ j)

/-- The steps of the kernel, and the opening of files. -/
inductive FileEvent where
  | step (e : KEvent)
  | openFile (found : Option (ℕ × ℕ)) (flags : ℕ)

/-- The state after such a step. -/
def fileStep (k : Kernel) : FileEvent → Kernel
  | .step e => kstep k e
  | .openFile found flags =>
    if k.halted then k
    else if k.pos k.currentProcIdx = .user then
      fileCall k (sysOpen k.files k.current.fdTable found flags).2
    else k

/-! ## The invariant -/

/-- `process_wait4` takes the process away. -/
def Process.dead (p : Process) : Prop := p.exited = true ∨ p.state = .zombie

/-- The counts are exact but for free slots, descriptors 0, 1, 2 are never in use, and a process that
has exited has no descriptor left. -/
structure RefsInv (k : Kernel) : Prop where
  counted : ∀ n, Counted k n
  low : ∀ j (fd : Fin vfsMaxFd), fd.val < 3 → ((k.procs j).fdTable fd).inUse = false
  dead : ∀ j, (k.procs j).active = true → (k.procs j).dead → ∀ fd,
    ((k.procs j).fdTable fd).inUse = false

/-- The process keeps its descriptors; it may end or become a zombie if it has none. -/
structure KeepsRefs (p p' : Process) : Prop where
  fdTable : p'.fdTable = p.fdTable
  active : p'.active = p.active ∨ p'.active = false ∧ ∀ fd, (p.fdTable fd).inUse = false
  dead : p'.active = true → p'.dead → p.dead ∨ ∀ fd, (p.fdTable fd).inUse = false

lemma KeepsRefs.refl (p : Process) : KeepsRefs p p := ⟨rfl, Or.inl rfl, fun _ h => Or.inl h⟩

lemma KeepsRefs.trans {p'' : Process} (h : KeepsRefs p p') (h' : KeepsRefs p' p'') :
    KeepsRefs p p'' where
  fdTable := h'.fdTable.trans h.fdTable
  active := by
    rcases h'.active with he' | ⟨he', hno⟩
    · rcases h.active with he | ⟨he, hno⟩
      · exact Or.inl (he'.trans he)
      · exact Or.inr ⟨he'.trans he, hno⟩
    · exact Or.inr ⟨he', h.fdTable ▸ hno⟩
  dead hact hd := by
    rcases h'.dead hact hd with hd' | hno
    · rcases h'.active with he' | ⟨-, hno⟩
      · exact h.dead (he' ▸ hact) hd'
      · exact Or.inr (h.fdTable ▸ hno)
    · exact Or.inr (h.fdTable ▸ hno)

lemma keepsRefs_update {f : ProcTable} {i : Fin maxProcesses} (h : KeepsRefs (f i) p)
    (j : Fin maxProcesses) : KeepsRefs (f j) (Function.update f i p j) := by
  by_cases hj : j = i
  · subst hj
    rwa [Function.update_self]
  · rw [Function.update_of_ne hj]
    exact KeepsRefs.refl _

/-- What keeps the descriptors of a process keeps its references. -/
lemma KeepsRefs.procRefs (h : KeepsRefs p p') (n : NodeRef) :
    procRefs n p' = Proc.procRefs n p := by
  unfold Proc.procRefs
  rw [h.fdTable]
  rcases h.active with he | ⟨he, hno⟩
  · rw [he]
  · rw [he, tableRefs_of_unused hno]
    simp

lemma Steady.dead (h : Steady c j p p') (hd : p'.dead) : p.dead := by
  rcases hd with hx | hz
  · exact Or.inl (h.exited ▸ hx)
  · rcases h.state with he | he | he | ⟨-, he⟩
    · exact Or.inr (he ▸ hz)
    all_goals
      rw [he] at hz
      cases hz

/-- A process that lives on with its descriptors. -/
lemma Steady.keepsRefs (h : Steady c j p p') (hfd : p'.fdTable = p.fdTable) : KeepsRefs p p' :=
  ⟨hfd, Or.inl h.active, fun _ hd => Or.inl (h.dead hd)⟩

/-- What a step does to the count of a node when only slot `c` changes its references: the two go
together, and a free slot to which nothing refers stays so; or the slot of the node is taken, and the
count starts anew. -/
def CountsWith (k k' : Kernel) (c : Fin maxProcesses) (n : NodeRef) : Prop :=
  (k'.files.refcount n - procRefs n (k'.procs c) = k.files.refcount n - procRefs n (k.procs c) ∧
    (k.files.vacant n → nodeRefs k n = 0 →
      k'.files.vacant n ∧ procRefs n (k'.procs c) = 0)) ∨
  nodeRefs k n = 0 ∧ k'.files.refcount n = procRefs n (k'.procs c)

/-- A count that moves with the references of the slot that changes stays exact. -/
lemma CountsWith.counted (h : CountsWith k k' c n) (hk : Counted k n)
    (hsum : nodeRefs k' n = nodeRefs k n - procRefs n (k.procs c) + procRefs n (k'.procs c)) :
    Counted k' n := by
  have hle := procRefs_le_nodeRefs k c n
  have hpos := procRefs_nonneg n (k.procs c)
  rcases h with ⟨hcount, hstay⟩ | ⟨h0, hnew⟩
  · rcases hk with he | ⟨hv, h0, hge⟩
    · exact Or.inl (by omega)
    · obtain ⟨hv', h0'⟩ := hstay hv h0
      exact Or.inr ⟨hv', by omega, by omega⟩
  · exact Or.inl (by omega)

/-- One slot changes, together with the counts; the others keep their references. -/
lemma RefsInv.of_slot (h : RefsInv k) (c : Fin maxProcesses)
    (hother : ∀ j, j ≠ c → KeepsRefs (k.procs j) (k'.procs j))
    (hcount : ∀ n, CountsWith k k' c n)
    (hlow : ∀ fd : Fin vfsMaxFd, fd.val < 3 → ((k'.procs c).fdTable fd).inUse = false)
    (hdead : (k'.procs c).active = true → (k'.procs c).dead → ∀ fd,
      ((k'.procs c).fdTable fd).inUse = false) : RefsInv k' where
  counted n := by
    refine (hcount n).counted (h.counted n) ?_
    have hupd : nodeRefs k' n =
        ∑ j, id (Function.update (fun j => procRefs n (k.procs j)) c (procRefs n (k'.procs c)) j) := by
      refine Finset.sum_congr rfl fun j _ => ?_
      by_cases hj : j = c
      · subst hj
        simp
      · rw [Function.update_of_ne hj]
        exact (hother j hj).procRefs n
    rw [hupd, sum_update_add]
    rfl
  low j fd hfd := by
    by_cases hj : j = c
    · subst hj
      exact hlow fd hfd
    · rw [(hother j hj).fdTable]
      exact h.low j fd hfd
  dead j hact hd fd := by
    by_cases hj : j = c
    · subst hj
      exact hdead hact hd fd
    · have hk := hother j hj
      rw [hk.fdTable]
      rcases hk.active with he | ⟨he, -⟩
      · exact (hk.dead hact hd).elim (fun hd' => h.dead j (he ▸ hact) hd' fd) fun hno => hno fd
      · exact absurd (he.symm.trans hact) (by simp)

/-- A step that changes neither descriptors nor counts keeps the invariant. -/
lemma RefsInv.of_keeps (h : RefsInv k) (hp : ∀ j, KeepsRefs (k.procs j) (k'.procs j))
    (hf : ∀ n, k'.files.refcount n = k.files.refcount n ∧ (k.files.vacant n → k'.files.vacant n)) :
    RefsInv k' := by
  have hk := hp 0
  refine h.of_slot 0 (fun j _ => hp j) (fun n => Or.inl ⟨?_, fun hv h0 => ⟨(hf n).2 hv, ?_⟩⟩)
    (fun fd hfd => ?_) fun hact hd fd => ?_
  · rw [(hf n).1, hk.procRefs n]
  · rw [hk.procRefs n]
    exact le_antisymm (h0 ▸ procRefs_le_nodeRefs k 0 n) (procRefs_nonneg n _)
  · rw [hk.fdTable]
    exact h.low 0 fd hfd
  · rw [hk.fdTable]
    rcases hk.active with he | ⟨he, -⟩
    · exact (hk.dead hact hd).elim (fun hd' => h.dead 0 (he ▸ hact) hd' fd) fun hno => hno fd
    · exact absurd (he.symm.trans hact) (by simp)

/-- The counts and the free slots are as before. -/
lemma RefsInv.of_files (h : RefsInv k) (hp : ∀ j, KeepsRefs (k.procs j) (k'.procs j))
    (hf : k'.files = k.files) : RefsInv k' :=
  h.of_keeps hp fun n => by
    rw [hf]
    exact ⟨rfl, id⟩

lemma tableRefs_le_nodeRefs (hact : (k.procs j).active = true) (n : NodeRef) :
    tableRefs (k.procs j).fdTable n ≤ nodeRefs k n := by
  have hle := procRefs_le_nodeRefs k j n
  unfold procRefs at hle
  rwa [if_pos hact] at hle

/-- The count covers the references of every active process, so freeing them never goes below zero.
-/
lemma RefsInv.tableRefs_le (h : RefsInv k) (hact : (k.procs j).active = true) (n : NodeRef) :
    tableRefs (k.procs j).fdTable n ≤ k.files.refcount n := by
  have hle := tableRefs_le_nodeRefs hact n
  rcases h.counted n with he | ⟨-, h0, hge⟩ <;> omega

/-! ## Processes that have exited -/

/-- An active process that has exited stands where `process_exit` has left it. -/
def DeadInv (k : Kernel) : Prop :=
  ∀ j, (k.procs j).active = true → (k.procs j).dead → k.pos j = .exited

lemma Newborn.not_dead {i : Fin maxProcesses} (h : Newborn k i p) : ¬ p.dead := by
  rintro (hx | hz)
  · exact absurd (h.exited.symm.trans hx) (by simp)
  · exact absurd (h.state.symm.trans hz) (by simp)

/-- An active process that has exited stays where `process_exit` has left it. -/
lemma kstep_deadInv (h : DeadInv k) (e : KEvent) : DeadInv (kstep k e) := by
  cases hc : e.isCreate with
  | true =>
    cases e with
    | create info name =>
      unfold kstep
      by_cases hhalt : k.halted = true
      · rwa [if_pos hhalt]
      rw [if_neg hhalt]
      dsimp only
      unfold processCreateFromElf
      split
      · exact h
      · rename_i i hi
        intro j hact hd
        dsimp only at hact hd ⊢
        by_cases hj : j = i
        · subst hj
          rw [Function.update_self] at hd
          rcases hd with hx | hz
          · cases hx
          · cases hz
        · rw [Function.update_of_ne hj] at hact hd ⊢
          exact h j hact hd
    | _ => cases hc
  | false =>
    intro j hact hd
    cases kstep_lifeStep k hc with
    | fates hreap hn hpos hfate =>
      cases hfate j with
      | steady hs => exact hpos j (h j (hs.active ▸ hact) (hs.dead hd))
      | ends _ _ hoff => exact absurd (hoff.symm.trans hact) (by simp)
      | exits hwhy _ _ _ _ => exact hwhy.2
    | spawns hreap i hs =>
      by_cases hj : j = i
      · subst hj
        exact absurd hd hs.newborn.not_dead
      · rw [hs.others j hj] at hact hd
        rw [hs.pos, Function.update_of_ne hj]
        exact h j hact hd
    | reaps i m hreap he hpos =>
      rw [he] at hact hd ⊢
      have hj := ne_of_reap_active hact
      rw [reap_procs_of_ne m hj] at hact hd
      exact reap_pos_exited hpos i m j (h j hact hd)

/-! ## Calls on descriptors -/

/-- A call that changes the descriptors of the running process and the counts with them. -/
lemma RefsInv.fileCall (h : RefsInv k) (hact : k.current.active = true) (hlive : ¬ k.current.dead)
    {r : Files × FdTable}
    (hcount : ∀ n, (r.1.refcount n - tableRefs r.2 n =
        k.files.refcount n - tableRefs k.current.fdTable n ∧
      (k.files.vacant n → tableRefs k.current.fdTable n = 0 →
        r.1.vacant n ∧ tableRefs r.2 n = 0)) ∨
      nodeRefs k n = 0 ∧ r.1.refcount n = tableRefs r.2 n)
    (hlow : ∀ fd : Fin vfsMaxFd, fd.val < 3 → (r.2 fd).inUse = false) :
    RefsInv (fileCall k r) := by
  have hc : (Proc.fileCall k r).procs k.currentProcIdx = { k.current with fdTable := r.2 } :=
    Function.update_self ..
  refine h.of_slot k.currentProcIdx (fun j hj => ?_) (fun n => ?_) (fun fd hfd => ?_)
    fun _ hd => absurd ?_ hlive
  · rw [show (Proc.fileCall k r).procs j = k.procs j from Function.update_of_ne hj _ _]
    exact KeepsRefs.refl _
  · have h1 : procRefs n (k.procs k.currentProcIdx) = tableRefs k.current.fdTable n := if_pos hact
    have h2 : procRefs n { k.current with fdTable := r.2 } = tableRefs r.2 n := if_pos hact
    have hle : tableRefs k.current.fdTable n ≤ nodeRefs k n := tableRefs_le_nodeRefs hact n
    unfold CountsWith
    rw [hc, h1, h2]
    refine (hcount n).imp_left (And.imp_right fun hstay hv h0 => hstay hv ?_)
    exact le_antisymm (h0 ▸ hle) (tableRefs_nonneg _ n)
  · rw [hc]
    exact hlow fd hfd
  · rw [hc] at hd
    exact hd

/-- A call that changes nothing. -/
lemma RefsInv.fileCall_same (h : RefsInv k) (hact : k.current.active = true)
    (hlive : ¬ k.current.dead) : RefsInv (Proc.fileCall k (k.files, k.current.fdTable)) :=
  h.fileCall hact hlive (fun _ => Or.inl ⟨rfl, fun hv h0 => ⟨hv, h0⟩⟩) (h.low k.currentProcIdx)

/-- `SYS_CLOSE` of an active process gives back the reference of its descriptor. -/
lemma sysClose_refsInv (h : RefsInv k) (hact : k.current.active = true)
    (hlive : ¬ k.current.dead) (fd : ℤ) :
    RefsInv (fileCall k (sysClose k.files k.current.fdTable fd).2) := by
  have hlow : ∀ x : Fin vfsMaxFd, x.val < 3 → (k.current.fdTable x).inUse = false :=
    h.low k.currentProcIdx
  unfold sysClose
  split_ifs with hfd hstd
  · exact h.fileCall_same hact hlive
  · dsimp only
    refine h.fileCall hact hlive (fun n => Or.inl ⟨fdFree_refs (h.tableRefs_le hact n) _,
      fun hv h0 => ⟨vacant_fdFree _ hv, ?_⟩⟩) fun x hx => ?_
    · exact le_antisymm (h0 ▸ tableRefs_fdFree_le ..) (tableRefs_nonneg _ n)
    rcases fdFree_table k.files k.current.fdTable ⟨fd.toNat, fd_lt hfd⟩ with he | he <;> rw [he]
    · exact hlow x hx
    · by_cases hxf : x = ⟨fd.toNat, fd_lt hfd⟩
      · rw [hxf, Function.update_self]
        rfl
      · rw [Function.update_of_ne hxf]
        exact hlow x hx
  · exact h.fileCall_same hact hlive

/-- Where `fd_alloc` puts the descriptor. -/
lemma fdAlloc_low {table : FdTable} (hlow : ∀ x : Fin vfsMaxFd, x.val < 3 → (table x).inUse = false)
    (node : NodeRef) (size flags : ℕ) (x : Fin vfsMaxFd) (hx : x.val < 3) :
    ((fdAlloc table node size flags).2 x).inUse = false := by
  unfold fdAlloc
  split
  · rename_i i hi
    have h3 := List.find?_some hi
    simp only [Bool.and_eq_true, decide_eq_true_eq] at h3
    have hxi : x ≠ i := by
      rintro rfl
      omega
    dsimp only
    rw [Function.update_of_ne hxi]
    exact hlow x hx
  · exact hlow x hx

/-- `SYS_OPEN` takes a reference and gives it back when no descriptor is left. -/
lemma sysOpen_refsInv (h : RefsInv k) (hact : k.current.active = true) (hlive : ¬ k.current.dead)
    (found : Option (ℕ × ℕ)) (flags : ℕ) :
    RefsInv (fileCall k (sysOpen k.files k.current.fdTable found flags).2) := by
  have hlow : ∀ x : Fin vfsMaxFd, x.val < 3 → (k.current.fdTable x).inUse = false :=
    h.low k.currentProcIdx
  cases found with
  | none => exact h.fileCall_same hact hlive
  | some x =>
    obtain ⟨id, size⟩ := x
    have hrefs := fdAlloc_refs k.current.fdTable (.file id) size flags
    have hlow' := fdAlloc_low hlow (.file id) size flags
    have hpos : 0 ≤ k.files.refcount (.file id) :=
      (tableRefs_nonneg _ _).trans (h.tableRefs_le hact (.file id))
    unfold sysOpen
    dsimp only
    rcases hfd : fdAlloc k.current.fdTable (.file id) size flags with ⟨r, table⟩
    rw [hfd] at hrefs hlow'
    -- a free socket slot is not the file
    have hslot : ∀ n, k.files.vacant n → n ≠ .file id := by
      rintro n hv rfl
      exact hv
    cases r with
    | none =>
      refine h.fileCall hact hlive (fun n => Or.inl ⟨?_, fun hv h0 =>
        ⟨vacant_modifyRefcount _ _ (vacant_modifyRefcount _ _ hv), ?_⟩⟩) hlow'
      · dsimp only
        rw [hrefs n, refcount_modifyRefcount]
        by_cases hn : n = .file id
        · subst hn
          rw [if_pos rfl, refcount_modifyRefcount, if_pos rfl, if_pos (by omega)]
          simp
        · rw [if_neg hn, refcount_modifyRefcount, if_neg hn]
          simp [hn]
      · dsimp only at hrefs ⊢
        simp [hrefs n, h0]
    | some fd =>
      refine h.fileCall hact hlive (fun n => Or.inl ⟨?_, fun hv h0 =>
        ⟨vacant_modifyRefcount _ _ hv, ?_⟩⟩) hlow'
      · dsimp only
        rw [hrefs n, refcount_modifyRefcount]
        by_cases hn : n = .file id
        · subst hn
          simp
        · simp [hn]
      · dsimp only at hrefs ⊢
        simp [hrefs n, h0, hslot n hv]

/-- What `socket_create` does to the counts: the slot it takes starts anew. -/
lemma socketCreate_cases (s : Sockets) (domain type protocol : ℤ) :
    socketCreate s domain type protocol = (none, s) ∨
    ∃ i s' x, freeSlot s = some i ∧ s'.table = Function.update s.table i x ∧
      (socketCreate s domain type protocol = (some i, s') ∧ x.refcount = 1 ∨
        socketCreate s domain type protocol = (none, s') ∧ x.refcount = 0) := by
  unfold socketCreate
  by_cases hbad : domain ≠ afInet ∨ (type ≠ sockStream ∧ type ≠ sockDgram)
  · exact Or.inl (if_pos hbad)
  rw [if_neg hbad]
  cases hi : freeSlot s with
  | none => exact Or.inl rfl
  | some i =>
    dsimp only
    by_cases hstream : type = sockStream
    · rw [if_pos hstream]
      rcases ht : tcpSocketCreate s.tcp with ⟨r, tcp⟩
      cases r with
      | none => exact Or.inr ⟨i, _, _, rfl, rfl, Or.inr ⟨rfl, rfl⟩⟩
      | some t => exact Or.inr ⟨i, _, _, rfl, rfl, Or.inl ⟨rfl, rfl⟩⟩
    · rw [if_neg hstream]
      exact Or.inr ⟨i, _, _, rfl, rfl, Or.inl ⟨rfl, rfl⟩⟩

lemma refcount_of_table {fs : Files} {s' : Sockets} {i : Fin maxNetSockets} {x : NetSocket}
    (h : s'.table = Function.update fs.sockets.table i x) (n : NodeRef) :
    ({ fs with sockets := s' } : Files).refcount n =
      if n = .sock i then x.refcount else fs.refcount n := by
  cases n with
  | file id => simp [Files.refcount]
  | sock j =>
    unfold Files.refcount
    dsimp only
    rw [h]
    by_cases hj : j = i
    · subst hj
      simp
    · simp [hj]

lemma vacant_of_table {fs : Files} {s' : Sockets} {i : Fin maxNetSockets} {x : NetSocket}
    (h : s'.table = Function.update fs.sockets.table i x) {n : NodeRef} (hn : n ≠ .sock i)
    (hv : fs.vacant n) : ({ fs with sockets := s' } : Files).vacant n := by
  cases n with
  | file id => exact hv
  | sock j =>
    have hj : j ≠ i := fun e => hn (by rw [e])
    unfold Files.vacant Files.sockInUse
    dsimp only
    rw [h, Function.update_of_ne hj]
    exact hv

/-- `fd_alloc` finds a descriptor when one is left. -/
lemma fdAlloc_isSome {table : FdTable} {fd : Fin vfsMaxFd} (h3 : 3 ≤ fd.val)
    (hfree : (table fd).inUse = false) (node : NodeRef) (size flags : ℕ) :
    (fdAlloc table node size flags).1.isSome = true := by
  unfold fdAlloc
  split
  · rfl
  · rename_i hnone
    rw [List.find?_eq_none] at hnone
    exact absurd (hnone fd (List.mem_finRange fd)) (by simp [h3, hfree])

/-- A new socket starts with one reference, for its descriptor. -/
lemma sysSocket_refsInv (h : RefsInv k) (hact : k.current.active = true)
    (hlive : ¬ k.current.dead) (domain type protocol : ℤ)
    (hslot : ∀ i, freeSlot k.files.sockets = some i → nodeRefs k (.sock i) = 0 ∧
      ∃ fd : Fin vfsMaxFd, 3 ≤ fd.val ∧ (k.current.fdTable fd).inUse = false) :
    RefsInv (fileCall k (sysSocket k.files k.current.fdTable domain type protocol).2) := by
  have hlow : ∀ x : Fin vfsMaxFd, x.val < 3 → (k.current.fdTable x).inUse = false :=
    h.low k.currentProcIdx
  have hsame := h.fileCall_same hact hlive
  have hnone : ∀ {n}, nodeRefs k n = 0 → tableRefs k.current.fdTable n = 0 := fun {n} h0 =>
    le_antisymm (h0 ▸ tableRefs_le_nodeRefs hact n) (tableRefs_nonneg _ n)
  unfold sysSocket
  split_ifs
  · exact hsame
  · exact hsame
  rcases socketCreate_cases k.files.sockets domain type protocol with
    hc | ⟨i, s', x, hi, ht, ⟨hc, hx⟩ | ⟨hc, hx⟩⟩ <;> rw [hc] <;> dsimp only
  · exact hsame
  · obtain ⟨h0, fd, h3, hfree⟩ := hslot i hi
    have hrefs := fdAlloc_refs k.current.fdTable (.sock i) 0 0
    have hlow' := fdAlloc_low hlow (.sock i) 0 0
    have hsome := fdAlloc_isSome h3 hfree (.sock i) 0 0
    rcases hfd : fdAlloc k.current.fdTable (.sock i) 0 0 with ⟨r, table⟩
    rw [hfd] at hrefs hlow' hsome
    obtain ⟨y, rfl⟩ := Option.isSome_iff_exists.mp hsome
    refine h.fileCall hact hlive (fun n => ?_) hlow'
    dsimp only at hrefs ⊢
    rw [hrefs n, refcount_of_table ht n]
    by_cases hn : n = .sock i
    · -- the count of the slot starts anew
      subst hn
      rw [if_pos rfl, hx, hnone h0]
      exact Or.inr ⟨h0, by simp⟩
    · rw [if_neg hn]
      refine Or.inl ⟨by simp [hn], fun hv hz => ⟨vacant_of_table ht hn hv, by simp [hz, hn]⟩⟩
  · -- the slot has been cleared, and nothing refers to it
    refine h.fileCall hact hlive (fun n => ?_) hlow
    dsimp only
    rw [refcount_of_table ht n]
    split_ifs with hn
    · have h0 := (hslot i hi).1
      rw [hn, hx, hnone h0]
      exact Or.inr ⟨h0, rfl⟩
    · exact Or.inl ⟨rfl, fun hv hz => ⟨vacant_of_table ht hn hv, hz⟩⟩

/-! ## Processes that end -/

/-- All descriptors of process `c`, which is active, go away. -/
lemma RefsInv.free_proc (h : RefsInv k) (hact : (k.procs c).active = true)
    (hfiles : k'.files = (fdFreeAll k.files (k.procs c).fdTable).1)
    (htable : (k'.procs c).fdTable = (fdFreeAll k.files (k.procs c).fdTable).2)
    (hother : ∀ j, j ≠ c → KeepsRefs (k.procs j) (k'.procs j)) :
    RefsInv k' ∧ ∀ fd, ((k'.procs c).fdTable fd).inUse = false := by
  have hall := fdFreeAll_freed k.files (k.procs c).fdTable
  have hnone : ∀ fd, ((k'.procs c).fdTable fd).inUse = false := by
    intro fd
    rw [htable]
    by_cases h3 : 3 ≤ fd.val
    · exact hall.freed fd h3 trivial
    · rcases hall.desc fd with he | he
      · rw [he]
        exact h.low c fd (by omega)
      · exact he
  have h0 : ∀ n, procRefs n (k'.procs c) = 0 := fun n => by
    unfold procRefs
    rw [tableRefs_of_unused hnone, ite_self]
  refine ⟨h.of_slot c hother (fun n => Or.inl ⟨?_, fun hv _ => ⟨hfiles ▸ vacant_fdFreeAll hv, h0 n⟩⟩)
    (fun fd _ => hnone fd) fun _ _ fd => hnone fd, hnone⟩
  have h1 : procRefs n (k.procs c) = tableRefs (k.procs c).fdTable n := if_pos hact
  have h2 := fdFreeAll_refs (h.tableRefs_le hact n)
  rw [← htable, ← hfiles, tableRefs_of_unused hnone] at h2
  rw [h0 n, h1]
  exact h2

/-- The condition on an exit of the running process: it is active, and the processes that end
with it have no descriptor. -/
def ExitSafe (k : Kernel) : Prop :=
  k.current.active = true ∧ (k.current.pid ≠ 1 → k.current.isThread = false →
    ∀ j, j ≠ k.currentProcIdx → (k.procs j).active = true → (k.procs j).ppid = k.current.pid →
      ∀ fd, ((k.procs j).fdTable fd).inUse = false)

lemma exitClearTid_keepsRefs (k : Kernel) (j : Fin maxProcesses) :
    KeepsRefs (k.procs j) ((exitClearTid k).procs j) := by
  unfold exitClearTid
  split_ifs
  · exact KeepsRefs.refl _
  · exact (futexWake_steady (c := k.currentProcIdx) ..).keepsRefs (futexWake_kept _ _ _ j).fdTable

/-- The last part of `process_exit`, for a process without descriptors whose children have
none. -/
lemma exitFinish_keepsRefs (code : ℤ) (hcur : ∀ fd, (k.current.fdTable fd).inUse = false)
    (hchild : k.current.pid ≠ 1 → k.current.isThread = false → ∀ j, j ≠ k.currentProcIdx →
      (k.procs j).active = true → (k.procs j).ppid = k.current.pid →
        ∀ fd, ((k.procs j).fdTable fd).inUse = false) (j : Fin maxProcesses) :
    KeepsRefs (k.procs j) ((exitFinish k code).procs j) := by
  unfold exitFinish
  dsimp only
  split_ifs with hone hthread
  · exact KeepsRefs.refl _
  · refine keepsRefs_update (i := k.currentProcIdx) ?_ j
    exact ⟨rfl, Or.inr ⟨rfl, hcur⟩, fun hact => by cases hact⟩
  · have hzombie : KeepsRefs (k.procs j) (Function.update k.procs k.currentProcIdx
        { k.current with exited := true, exitCode := code, state := .zombie } j) := by
      refine keepsRefs_update (i := k.currentProcIdx) ?_ j
      exact ⟨rfl, Or.inl rfl, fun _ _ => Or.inr hcur⟩
    refine hzombie.trans (KeepsRefs.trans ?_ ((wakeParent_steady (c := k.currentProcIdx) _ _).keepsRefs
      (wakeParent_kept _ _ j).fdTable))
    unfold endChildren
    split_ifs with hend
    · -- a child ends, and has no descriptor
      refine ⟨rfl, Or.inr ⟨rfl, fun fd => ?_⟩, fun hact => by cases hact⟩
      by_cases hj : j = k.currentProcIdx
      · subst hj
        rw [Function.update_self]
        exact hcur fd
      · rw [Function.update_of_ne hj] at hend ⊢
        exact hchild hone (by simpa using hthread) j hj hend.1 hend.2 fd
    · exact KeepsRefs.refl _

/-- An exit gives back the references of the process; its children must hold none. -/
lemma processExit_refsInv (h : RefsInv k) (code : ℤ) (hsafe : ExitSafe k) :
    RefsInv (processExit k code) := by
  have hcur : (exitFds k).procs k.currentProcIdx =
      { k.current with fdTable := (fdFreeAll k.files k.current.fdTable).2 } :=
    Function.update_self ..
  have hne : ∀ j, j ≠ k.currentProcIdx → (exitFds k).procs j = k.procs j := fun j hj =>
    Function.update_of_ne hj _ _
  have hfiles : (exitFds k).files = (fdFreeAll k.files k.current.fdTable).1 := rfl
  obtain ⟨h1, hnone⟩ := h.free_proc hsafe.1 hfiles (by rw [hcur]; rfl)
    fun j hj => hne j hj ▸ KeepsRefs.refl _
  -- from there on no descriptor and no count changes
  have h2 := fun j => exitClearTid_keepsRefs (exitFds k) j
  have hidx : (exitClearTid (exitFds k)).currentProcIdx = k.currentProcIdx :=
    exiting_currentProcIdx k
  have hs : ∀ j, Steady k.currentProcIdx j (k.procs j) ((exitClearTid (exitFds k)).procs j) :=
    fun j => exiting_steady k
  have hcurrent : (exitClearTid (exitFds k)).current =
      (exitClearTid (exitFds k)).procs k.currentProcIdx := congrArg _ hidx
  refine h1.of_files (fun j => (h2 j).trans (exitFinish_keepsRefs code ?_ ?_ j))
    (processExit_globals k code).files
  · rw [hcurrent, (h2 _).fdTable]
    exact hnone
  · rw [hcurrent, hidx, (hs _).pid, (hs _).isThread]
    intro hone hthread j hj hact hppid
    rw [(hs j).active] at hact
    rw [(hs j).ppid] at hppid
    rw [(h2 j).fdTable, hne j hj]
    exact hsafe.2 hone hthread j hj hact hppid

/-- A kill gives back the references of the process. -/
lemma processKill_refsInv (h : RefsInv k) (pid sig : ℤ) : RefsInv (processKill k pid sig).2 := by
  unfold processKill
  split
  · exact h
  · rename_i c hc
    have hact : (k.procs c).active = true := by
      have := List.find?_some hc
      simp only [Bool.and_eq_true] at this
      exact this.1
    refine (h.free_proc (c := c) hact rfl ?_ fun j hj => ?_).1
    · dsimp only
      rw [(wakeParent_kept _ _ c).fdTable, Function.update_self]
    · refine KeepsRefs.trans ?_ ((wakeParent_steady (c := c) _ _).keepsRefs
        (wakeParent_kept _ _ j).fdTable)
      rw [Function.update_of_ne hj]
      exact KeepsRefs.refl _

/-- A zombie that is reaped has no descriptor. -/
lemma wait4Call_refsInv (h : RefsInv k) (pid : ℤ) (statusPtr : ℕ) :
    RefsInv (wait4Call k pid statusPtr) := by
  rcases wait4Call_cases k pid statusPtr with ⟨i, m, hslot, he⟩ | ⟨-, q, -, he⟩ <;> rw [he]
  · have hi := List.find?_some hslot
    simp only [wait4Matches, Bool.and_eq_true, Bool.or_eq_true, beq_iff_eq] at hi
    obtain ⟨⟨hact, -⟩, hdead⟩ := hi
    refine h.of_files (keepsRefs_update (i := i) ?_) rfl
    exact ⟨rfl, Or.inr ⟨rfl, h.dead i hact hdead.symm⟩, fun hoff => by cases hoff⟩
  · exact h.of_files (fun _ => KeepsRefs.refl _) rfl

/-! ## Processes that start -/

/-- A process is put into slot `c`, which is not active, with a copy of the table of the running
process or an empty one. -/
lemma RefsInv.new_proc (h : RefsInv k) (hoff : (k.procs c).active = false) (hon : p.active = true)
    (hlive : ¬ p.dead) (hprocs : k'.procs = Function.update k.procs c p)
    (hfiles : ∀ n, k'.files.refcount n = k.files.refcount n + tableRefs p.fdTable n ∧
      (k.files.vacant n → k'.files.vacant n))
    (hcopy : ∀ n, tableRefs p.fdTable n ≤ nodeRefs k n)
    (hlow : ∀ fd : Fin vfsMaxFd, fd.val < 3 → (p.fdTable fd).inUse = false) : RefsInv k' := by
  have hc : k'.procs c = p := by rw [hprocs, Function.update_self]
  refine h.of_slot c (fun j hj => ?_) (fun n => ?_) (fun fd hfd => ?_) fun _ hd => absurd hd ?_
  · rw [hprocs, Function.update_of_ne hj]
    exact KeepsRefs.refl _
  · have h0 : procRefs n (k.procs c) = 0 := by simp [procRefs, hoff]
    have h1 : procRefs n p = tableRefs p.fdTable n := if_pos hon
    refine Or.inl ⟨?_, fun hv hz => ⟨(hfiles n).2 hv, ?_⟩⟩
    · rw [hc, h0, h1, (hfiles n).1]
      ring
    · rw [hc, h1]
      exact le_antisymm (hz ▸ hcopy n) (tableRefs_nonneg _ n)
  · rw [hc]
    exact hlow fd hfd
  · rwa [hc]

/-- A fork counts every descriptor that it copies to the child. -/
lemma processFork_refsInv (h : RefsInv k) (frame : ContextFrame)
    (hact : k.current.active = true) : RefsInv (processFork k frame).2 := by
  unfold processFork
  split
  · exact h
  · rename_i c hc
    refine h.new_proc (c := c) (forkSlot_inactive hc) rfl ?_ rfl
      (fun n => ⟨refcount_fdTableClone k.files _ n, vacant_fdTableClone _⟩) (fun n => ?_)
      fun fd hfd => ?_
    · rintro (hx | hz)
      · cases hx
      · cases hz
    · rw [parentView_of_active hc hact]
      exact tableRefs_le_nodeRefs hact n
    · rw [parentView_of_active hc hact]
      exact h.low k.currentProcIdx fd hfd

/-- A thread starts with a copy of the table as well. -/
lemma processClone_refsInv (h : RefsInv k) (flags childStack ptid ctid newtls : ℕ)
    (frame : ContextFrame) (hact : k.current.active = true) :
    RefsInv (processClone k flags childStack ptid ctid newtls frame).2 := by
  unfold processClone
  split_ifs
  · unfold cloneThread
    split
    · exact h
    · rename_i c hc
      refine h.new_proc (c := c) (forkSlot_inactive hc) rfl ?_ rfl
        (fun n => ⟨refcount_fdTableClone k.files _ n, vacant_fdTableClone _⟩) (fun n => ?_)
        fun fd hfd => ?_
      · rintro (hx | hz)
        · cases hx
        · cases hz
      · rw [parentView_of_active hc hact]
        exact tableRefs_le_nodeRefs hact n
      · rw [parentView_of_active hc hact]
        exact h.low k.currentProcIdx fd hfd
  · exact processFork_refsInv h frame hact

/-- A new process starts with no descriptor. -/
lemma processCreateFromElf_refsInv (h : RefsInv k) (info : ElfInfo) (name : List UInt8) :
    RefsInv (processCreateFromElf k info name).2 := by
  unfold processCreateFromElf
  split
  · exact h
  · rename_i c hc
    have hoff : (k.procs c).active = false := by simpa using List.find?_some hc
    refine h.new_proc (c := c) hoff rfl ?_ rfl (fun n => ⟨?_, id⟩) (fun n => ?_) fun _ _ => rfl
    · rintro (hx | hz)
      · cases hx
      · cases hz
    · dsimp only
      rw [tableRefs_of_unused (fun _ => rfl), add_zero]
    · rw [tableRefs_of_unused (fun _ => rfl)]
      exact (procRefs_nonneg n _).trans (procRefs_le_nodeRefs k c n)

/-- `execve` keeps the descriptors of its caller. -/
lemma processExecve_refsInv (h : RefsInv k) (path argv0 : Option (List UInt8)) :
    RefsInv (processExecve k path argv0).2 := by
  refine h.of_files (fun j => (processExecve_steady k path argv0).keepsRefs ?_)
    (processExecve_globals k path argv0).files
  by_cases hj : j = k.currentProcIdx
  · subst hj
    exact (processExecve_current k path argv0).fdTable
  · rw [processExecve_procs_of_ne path argv0 hj]

/-! ## Runs -/

/-- The condition on a step under which the counts stay exact: a process that has been killed
makes no more calls on descriptors and no other process, no process ends whose children have
descriptors, and a socket is made only where no descriptor refers to its slot and one is left for
it. -/
def RefsSafe (k : Kernel) : FileEvent → Prop
  | .openFile _ _ => k.current.active = true
  | .step (.call (.close _)) => k.current.active = true
  | .step (.call (.socket _ _ _)) => k.current.active = true ∧
    ∀ i, freeSlot k.files.sockets = some i → nodeRefs k (.sock i) = 0 ∧
      ∃ fd : Fin vfsMaxFd, 3 ≤ fd.val ∧ (k.current.fdTable fd).inUse = false
  | .step (.call (.fork _)) => k.current.active = true
  | .step (.call (.clone _ _ _ _ _ _)) => k.current.active = true
  | .step (.call (.exit _)) => ExitSafe k
  | .step (.pageFault faultAddr errorCode) => FaultRefused k faultAddr errorCode → ExitSafe k
  | _ => True

lemma sysShutdown_refcount (fs : Files) (table : FdTable) (fd : ℤ) (n : NodeRef) :
    (sysShutdown fs table fd).2.refcount n = fs.refcount n := by
  unfold sysShutdown
  split_ifs
  · dsimp only
    split_ifs
    · split
      · rfl
      split
      · cases n with
        | sock j => exact refcount_socketClose fs.sockets _ j
        | file id => rfl
      · rfl
    · rfl
  · rfl

lemma vacant_sysShutdown {fs : Files} {n : NodeRef} (table : FdTable) (fd : ℤ) (h : fs.vacant n) :
    (sysShutdown fs table fd).2.vacant n := by
  unfold sysShutdown
  split_ifs
  · dsimp only
    split_ifs
    · split
      · exact h
      split
      · cases n with
        | sock j => exact socketClose_free h _
        | file id => exact h
      · exact h
    · exact h
  · exact h

/-- Every system call that meets its condition keeps the counts exact. -/
lemma doSyscall_refsInv (h : RefsInv k) (hdead : DeadInv k)
    (hpos : k.pos k.currentProcIdx = .user) (call : Call)
    (hsafe : RefsSafe k (.step (.call call))) : RefsInv (doSyscall k call) := by
  have hlive : k.current.active = true → ¬ k.current.dead := fun hact hd => by
    have hx := hdead k.currentProcIdx hact hd
    rw [hpos] at hx
    cases hx
  -- a call that touches neither descriptors nor counts
  have hkeep : call.changesFamily = false →
      (∀ j, ((doSyscall k call).procs j).fdTable = (k.procs j).fdTable) →
      (doSyscall k call).files = k.files →
      RefsInv (doSyscall k call) := fun hcall hfd hfiles =>
    h.of_files (fun j => (doSyscall_steady k call hcall j).keepsRefs (hfd j)) hfiles
  have hset : ∀ {q : Process} (j), q.fdTable = k.current.fdTable →
      ((k.setCurrent q).procs j).fdTable = (k.procs j).fdTable := fun {q} j hq => by
    by_cases hj : j = k.currentProcIdx
    · subst hj
      exact (congrArg Process.fdTable (Function.update_self ..)).trans hq
    · exact congrArg Process.fdTable (Function.update_of_ne hj _ _)
  cases call with
  | futexWait uaddr val word =>
    exact hkeep rfl (fun j => (futexWait_kept k uaddr val word j).fdTable)
      (futexWait_globals k uaddr val word).files
  | futexWake uaddr count =>
    exact hkeep rfl (fun j => (futexWake_kept k.procs uaddr count j).fdTable) rfl
  | nanosleep sec nsec =>
    exact hkeep rfl (fun j => (sysNanosleep_kept k sec nsec j).fdTable)
      (sysNanosleep_globals k sec nsec).files
  | fork frame => exact processFork_refsInv h frame hsafe
  | clone flags childStack ptid ctid newtls frame =>
    exact processClone_refsInv h flags childStack ptid ctid newtls frame hsafe
  | execve path argv0 => exact processExecve_refsInv h path argv0
  | exit code => exact processExit_refsInv h code hsafe
  | kill pid sig => exact processKill_refsInv h pid sig
  | wait4 pid statusPtr => exact wait4Call_refsInv h pid statusPtr
  | setTidAddress addr => exact hkeep rfl (fun j => hset j rfl) rfl
  | socket domain type protocol =>
    exact sysSocket_refsInv h hsafe.1 (hlive hsafe.1) domain type protocol hsafe.2
  | close fd => exact sysClose_refsInv h hsafe (hlive hsafe) fd
  | shutdown fd =>
    refine h.of_keeps (fun j => (doSyscall_steady k (.shutdown fd) rfl j).keepsRefs rfl) fun n => ?_
    exact ⟨sysShutdown_refcount k.files _ fd n, vacant_sysShutdown _ fd⟩
  | mmap addr len prot flags => exact hkeep rfl (fun j => hset j rfl) rfl
  | munmap addr len => exact hkeep rfl (fun j => hset j rfl) rfl
  | mprotect addr len prot => exact hkeep rfl (fun j => hset j rfl) rfl
  | brk newBrk => exact hkeep rfl (fun _ => rfl) rfl

lemma resume_refsInv (h : RefsInv k) : RefsInv (resume k) := by
  unfold resume
  split
  · exact h
  · split_ifs
    · exact h
    · exact h.of_files (fun _ => KeepsRefs.refl _) rfl
  · split_ifs
    · exact h
    · exact h.of_files (fun _ => KeepsRefs.refl _) rfl
  · exact wait4Call_refsInv h _ _
  · exact h

/-- Every step that meets its condition keeps the counts exact. -/
lemma kstep_refsInv (h : RefsInv k) (hdead : DeadInv k) (e : KEvent)
    (hsafe : RefsSafe k (.step e)) : RefsInv (kstep k e) := by
  unfold kstep
  by_cases hhalt : k.halted = true
  · rwa [if_pos hhalt]
  rw [if_neg hhalt]
  cases e with
  | tick frame =>
    exact h.of_files (fun j => (schedulerTick_steady k frame).keepsRefs
      (schedulerTick_kept k frame j).fdTable) (schedulerTick_globals k frame).files
  | resume => exact resume_refsInv h
  | create info name => exact processCreateFromElf_refsInv h info name
  | pageFault faultAddr errorCode =>
    dsimp only
    split_ifs
    · rcases handleFault_cases k faultAddr errorCode with he | ⟨hr, he⟩ | he
      · rw [he]
        exact h.of_files (fun _ => KeepsRefs.refl _) rfl
      · rw [he]
        exact processExit_refsInv h (-11) (hsafe hr)
      · rw [he]
        exact h.of_files (fun _ => KeepsRefs.refl _) rfl
    · exact h
  | call c =>
    dsimp only
    split_ifs with hpos
    · exact doSyscall_refsInv h hdead hpos c hsafe
    · exact h

/-- A step that meets its condition keeps the invariant. -/
lemma fileStep_refsInv (k : Kernel) (e : FileEvent) (h : RefsInv k ∧ DeadInv k)
    (hsafe : RefsSafe k e) : RefsInv (fileStep k e) ∧ DeadInv (fileStep k e) := by
  obtain ⟨h, hdead⟩ := h
  cases e with
  | step e => exact ⟨kstep_refsInv h hdead e hsafe, kstep_deadInv hdead e⟩
  | openFile found flags =>
    unfold fileStep
    dsimp only
    split_ifs with hhalt hpos
    · exact ⟨h, hdead⟩
    · have hlive : ¬ k.current.dead := fun hd => by
        have hx := hdead k.currentProcIdx hsafe hd
        rw [hpos] at hx
        cases hx
      refine ⟨sysOpen_refsInv h hsafe hlive found flags, fun j hact hd => ?_⟩
      by_cases hj : j = k.currentProcIdx
      · subst hj
        refine hdead k.currentProcIdx hsafe ?_
        have hc : (fileCall k (sysOpen k.files k.current.fdTable found flags).2).procs
            k.currentProcIdx = { k.current with
              fdTable := (sysOpen k.files k.current.fdTable found flags).2.2 } :=
          Function.update_self ..
        rw [hc] at hd
        exact hd
      · have hc : (fileCall k (sysOpen k.files k.current.fdTable found flags).2).procs j =
            k.procs j := Function.update_of_ne hj _ _
        rw [hc] at hact hd
        exact hdead j hact hd
    · exact ⟨h, hdead⟩

/-- At the start nobody holds a descriptor, and no count says otherwise. -/
lemma boot_refsInv (mem : Mem) {files : Files}
    (hfiles : ∀ n, ¬ files.vacant n → files.refcount n = 0) (hvacant : ∀ n, 0 ≤ files.refcount n)
    (ramdisk : RamdiskAt) (info : ElfInfo) (name : List UInt8) :
    RefsInv (boot mem files ramdisk info name) ∧ DeadInv (boot mem files ramdisk info name) := by
  have hempty : ∀ j fd, (((boot mem files ramdisk info name).procs j).fdTable fd).inUse = false := by
    intro j fd
    by_cases hj : j = 0
    · subst hj
      rfl
    · rw [boot_procs_of_ne mem files ramdisk info name hj]
      rfl
  have hlive : ∀ j, ¬ ((boot mem files ramdisk info name).procs j).dead := by
    intro j
    by_cases hj : j = 0
    · subst hj
      rintro (hx | hz)
      · cases hx
      · cases hz
    · rw [boot_procs_of_ne mem files ramdisk info name hj]
      rintro (hx | hz)
      · cases hx
      · cases hz
  refine ⟨⟨fun n => ?_, fun j fd _ => hempty j fd, fun j _ hd => absurd hd (hlive j)⟩,
    fun j _ hd => absurd hd (hlive j)⟩
  have hzero : nodeRefs (boot mem files ramdisk info name) n = 0 := by
    refine Finset.sum_eq_zero fun j _ => ?_
    unfold procRefs
    rw [tableRefs_of_unused (hempty j), ite_self]
  unfold Counted
  rw [show (boot mem files ramdisk info name).files = files from rfl, hzero]
  by_cases hv : files.vacant n
  · exact Or.inr ⟨hv, rfl, hvacant n⟩
  · exact Or.inl (hfiles n hv)

/-- **The reference counts are exact** in a run from the start of the first program, as long as
only active processes open and close descriptors and make processes, no process ends whose
children have descriptors, and a socket is made where no descriptor refers to its slot and one is
left for it.  At the start the counts of all files and of the sockets in use are 0. -/
theorem refcounts_exact_of_run (mem : Mem) {files : Files}
    (hfiles : ∀ n, ¬ files.vacant n → files.refcount n = 0) (hvacant : ∀ n, 0 ≤ files.refcount n)
    (ramdisk : RamdiskAt) (info : ElfInfo) (name : List UInt8) (es : List FileEvent)
    (h : Runs.StepsMeet fileStep RefsSafe (boot mem files ramdisk info name) es) :
    RefsExact (Runs.runFrom fileStep (boot mem files ramdisk info name) es) := by
  have hinv := (Runs.invariant_runFrom (I := fun k => RefsInv k ∧ DeadInv k) fileStep_refsInv
    (boot_refsInv mem hfiles hvacant ramdisk info name) h).1
  intro n hn
  exact (hinv.counted n).resolve_right fun hv => hn hv.1

/-- The files as the kernel's own tests leave them: socket slot 0 is free, and its count is 1. -/
def testedFiles : Files :=
  { freshKernel.files with
    sockets := { freshKernel.files.sockets with
      table := Function.update (fun _ => NetSocket.zero) 0 { NetSocket.zero with refcount := 1 } } }

/-- The first program starts after the tests. -/
def testedKernel : Kernel :=
  boot (mmInit (fun _ => 0) fun _ => false) testedFiles ⟨0, 0, false⟩
    ⟨0x400000, 0x400000, 0x401000, []⟩ []

/-- A process opens file 7, makes a socket, forks and closes its own descriptor for the file. -/
def openForkClose : List FileEvent :=
  [.openFile (some (7, 0)) 0, .step (.call (.socket 2 2 0)), .step (.call (.fork someFrame)),
    .step (.call (.close 3))]

theorem refcounts_exact_of_run_openForkClose :
    RefsExact (Runs.runFrom fileStep testedKernel openForkClose) :=
  refcounts_exact_of_run _
    (by
      rintro (i | id) hn
      · refine absurd ?_ hn
        revert i
        decide +kernel
      · rfl)
    (by
      rintro (i | id)
      · revert i
        decide +kernel
      · exact le_rfl) _ _ _ openForkClose
    ⟨(by decide +kernel : testedKernel.current.active = true),
      (⟨by decide +kernel, by decide +kernel⟩ : RefsSafe
        (fileStep testedKernel (.openFile (some (7, 0)) 0)) (.step (.call (.socket 2 2 0)))),
      (by decide +kernel : (fileStep (fileStep testedKernel (.openFile (some (7, 0)) 0))
        (.step (.call (.socket 2 2 0)))).current.active = true),
      (by decide +kernel : (fileStep (fileStep (fileStep testedKernel (.openFile (some (7, 0)) 0))
        (.step (.call (.socket 2 2 0)))) (.step (.call (.fork someFrame)))).current.active = true),
      trivial⟩

/-- A child of the first process opens file 7, forks and exits. -/
def openForkExit : List FileEvent :=
  [.step (.call (.fork someFrame)), .step (.tick 0), .openFile (some (7, 0)) 0,
    .step (.call (.fork someFrame)), .step (.call (.exit 0))]

/-- The file keeps a reference that no descriptor of an active process stands for: the exit ends
the child of the process without freeing its descriptors. -/
theorem refcount_left_by_exit :
    (Runs.runFrom fileStep freshKernel openForkExit).files.refcount (.file 7) = 1 ∧
      nodeRefs (Runs.runFrom fileStep freshKernel openForkExit) (.file 7) = 0 := by
  decide +kernel

end Bangos.Proc
