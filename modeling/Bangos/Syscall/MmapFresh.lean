import Bangos.Mm.VmaTable

/-!
# `SYS_MMAP` returns memory that was free

Without `MAP_FIXED` a mapping goes to the hint, if the page there is in no area, or to
`mmap_curr_base`, which only ever moves up.  Neither looks at the rest of the range, and
`mmap_curr_base` does not move for what was mapped at a hint or at a fixed address.  What makes
the ranges returned free all the same is that everything mapped lies below `mmap_curr_base`.
-/

namespace Bangos.Syscall

open Bangos.Mm

variable {m : Mem} {p q : ProcVm} {vs vs' : VmaTable} {addr len prot flags v s e base : ℕ}
  {i : Fin maxProcessVmas}

/-- The hint of an `SYS_MMAP` call is taken. -/
def TakesHint (p : ProcVm) (addr flags : ℕ) : Prop :=
  flags.testBit 4 = false ∧ addr ≠ 0 ∧ addr % 4096 = 0 ∧ 0x40000000 ≤ addr ∧
    vmaFind p.vmas addr = none

instance (p : ProcVm) (addr flags : ℕ) : Decidable (TakesHint p addr flags) :=
  inferInstanceAs (Decidable (_ ∧ _))

/-- A call without `MAP_FIXED` that returns an address returns a range of which no address was in
an area. -/
def ReturnsFresh (s : Mem × ProcVm) : VmaCall → Prop
  | .mmap addr len prot flags => flags.testBit 4 = false → ∀ v,
      (sysMmap s.1 s.2 addr len prot flags).1 = .ok v → v < 2 ^ 63 →
        ∀ x, v ≤ x → x < v + pageAlign len → ¬ Covered s.2.vmas x
  | .munmap _ _ => True
  | .mprotect _ _ _ => True

/-- The condition on a call.  A mapping at a fixed address or at a hint ends at or below
`mmap_curr_base`, and no area begins in the range at a hint; a mapping at `mmap_curr_base` does
not reach the end of the address space; and an `SYS_MPROTECT` that begins inside an area and ends
behind it ends at or below `mmap_curr_base`. -/
def CallBelow (s : Mem × ProcVm) : VmaCall → Prop
  | .mmap addr len _ flags =>
    if flags.testBit 4 then u64 (addr + pageAlign len) ≤ s.2.mmapCurrBase
    else if TakesHint s.2 addr flags then u64 (addr + pageAlign len) ≤ s.2.mmapCurrBase ∧
      ∀ i, (s.2.vmas i).used = true → addr ≤ (s.2.vmas i).start →
        addr + pageAlign len ≤ (s.2.vmas i).start
    else s.2.mmapCurrBase + pageAlign len < 2 ^ 64
  | .munmap _ _ => True
  | .mprotect addr len _ => ∀ i, Tail s.2.vmas addr (u64 (addr + pageAlign len)) i →
      u64 (addr + pageAlign len) ≤ s.2.mmapCurrBase

instance (s : Mem × ProcVm) : ∀ c, Decidable (CallBelow s c)
  | .mmap _ _ _ _ => inferInstanceAs (Decidable (ite _ _ _))
  | .munmap _ _ => inferInstanceAs (Decidable True)
  | .mprotect _ _ _ => inferInstanceAs (Decidable (∀ _, _))

/-- Every area in use ends at or below `base`. -/
def EndsBelow (vs : VmaTable) (base : ℕ) : Prop := ∀ i, (vs i).used = true → (vs i).endAddr ≤ base

/-- Everything mapped lies below `mmap_curr_base`, which is page-aligned. -/
structure BelowBase (p : ProcVm) : Prop where
  aligned : 4096 ∣ p.mmapCurrBase
  lt : p.mmapCurrBase < 2 ^ 64
  below : EndsBelow p.vmas p.mmapCurrBase

/-! ## What the calls do to the areas -/

lemma EndsBelow.update {v : VmArea} (h : EndsBelow vs base)
    (hv : v.used = true → v.endAddr ≤ base) : EndsBelow (Function.update vs i v) base :=
  forall_used_update (P := fun v => v.endAddr ≤ base) h hv

lemma EndsBelow.grown (h : EndsBelow vs base) (hg : Grown vs s e vs') (he : e ≤ base) :
    EndsBelow vs' base := by
  cases hg with
  | same => exact h
  | right i _ _ => exact h.update fun _ => he
  | left i hu _ => exact h.update fun _ => h i hu
  | fresh i _ _ _ => exact h.update fun _ => he

lemma EndsBelow.vmaCut (h : EndsBelow vs base) (hmeets : (vs i).meets s e = true) :
    EndsBelow (vmaCut vs s e i) base := by
  simp only [VmArea.meets, Bool.and_eq_true, decide_eq_true_eq] at hmeets
  obtain ⟨hu, hlo, -⟩ := hmeets
  have hi := h i hu
  unfold Mm.vmaCut
  dsimp only
  split_ifs
  · exact h.update fun hf => by cases hf
  · exact h.update fun _ => hi
  · exact h.update fun _ => hlo.le.trans hi
  · exact (h.update fun _ => hlo.le.trans hi).grown (vmaCreate_grown ..) hi

lemma EndsBelow.vmaReprotect {newProt : ℕ} (h : EndsBelow vs base) (hmeets : (vs i).meets s e = true)
    (ht : Tail vs s e i → e ≤ base) : EndsBelow (vmaReprotect vs s e newProt i) base := by
  simp only [VmArea.meets, Bool.and_eq_true, decide_eq_true_eq] at hmeets
  obtain ⟨hu, hlo, hhi⟩ := hmeets
  have hi := h i hu
  have hcut := hlo.le.trans hi
  unfold Mm.vmaReprotect
  dsimp only
  split_ifs with h₁ h₂ h₃
  · exact h.update fun _ => hi
  · exact (h.update fun _ => h₂.2.le.trans hi).grown (vmaCreate_grown ..) hi
  · refine (h.update fun _ => hcut).grown (vmaCreate_grown ..) ?_
    rcases h₃.2.lt_or_eq with hlt | heq
    · exact ht ⟨hu, h₃.1, hlo, hlt⟩
    · exact heq ▸ hi
  · have hend : e ≤ base := by omega
    exact ((h.update fun _ => hcut).grown (vmaCreate_grown ..) hend).grown (vmaCreate_grown ..) hi

lemma EndsBelow.vmaRemove (h : EndsBelow vs base) (m : Mem) (s e : ℕ) :
    EndsBelow (vmaRemove m vs s e).2.2 base := by
  unfold Mm.vmaRemove
  split_ifs
  · exact h
  refine List.foldlRecOn (motive := fun r : Mem × VmaTable => EndsBelow r.2 base) _ _ h
    fun r hr i _ => ?_
  unfold vmaRemoveStep
  dsimp only
  split_ifs with hmeets
  · exact hr.vmaCut hmeets
  · exact hr

lemma EndsBelow.vmaProtect (h : EndsBelow vs base) (m : Mem) (newProt : ℕ)
    (ht : ∀ i, Tail vs s e i → e ≤ base) : EndsBelow (vmaProtect m vs s e newProt).2.2 base := by
  unfold Mm.vmaProtect
  split_ifs with hle
  · exact h
  refine (List.foldlRecOn (motive := fun r : Mem × VmaTable =>
    EndsBelow r.2 base ∧ ∀ i, Tail r.2 s e i → e ≤ base) _ _ ⟨h, ht⟩ fun r hr i _ => ?_).1
  unfold vmaProtectStep
  dsimp only
  split_ifs with hmeets
  · exact ⟨hr.1.vmaReprotect hmeets (hr.2 i),
      fun j hj => hr.2 j (Tail.of_reprotect hmeets (not_le.mp hle) hj)⟩
  · exact hr

/-! ## Where a mapping goes -/

lemma pageAlign_eq {x : ℕ} (hal : 4096 ∣ x) (hlt : x < 2 ^ 64) : pageAlign x = x := by
  obtain ⟨n, rfl⟩ := hal
  unfold pageAlign u64 pageSize
  omega

lemma pageAlign_lt (x : ℕ) : pageAlign x < 2 ^ 64 := by
  unfold pageAlign u64
  omega

/-- The three ways to choose the address. -/
lemma mmapAddr_cases (h : BelowBase p)
    (hok : mmapAddr p addr (pageAlign len) flags = .ok (v, q)) :
    flags.testBit 4 = true ∧ v = addr ∧ q = p ∨ TakesHint p addr flags ∧ v = addr ∧ q = p ∨
      flags.testBit 4 = false ∧ ¬ TakesHint p addr flags ∧ v = p.mmapCurrBase ∧
        q = { p with mmapCurrBase := u64 (p.mmapCurrBase + pageAlign len) } := by
  unfold mmapAddr at hok
  split_ifs at hok with hfix hbad hhint
  · obtain ⟨rfl, rfl⟩ := Prod.mk.inj (Except.ok.inj hok)
    exact Or.inl ⟨hfix, rfl, rfl⟩
  · obtain ⟨rfl, rfl⟩ := Prod.mk.inj (Except.ok.inj hok)
    exact Or.inr (Or.inl ⟨⟨by simpa using hfix, hhint⟩, rfl, rfl⟩)
  · obtain ⟨rfl, rfl⟩ := Prod.mk.inj (Except.ok.inj hok)
    refine Or.inr (Or.inr ⟨by simpa using hfix, fun hc => hhint hc.2, ?_, ?_⟩)
    · exact pageAlign_eq h.aligned h.lt
    · rw [pageAlign_eq h.aligned h.lt, pageAlign_eq (dvd_pageAlign len) (pageAlign_lt len)]

/-- What `SYS_MMAP` leaves of the areas of the process: all as it was, or an area created at the
address chosen. -/
lemma sysMmap_vm (m : Mem) (p : ProcVm) (addr len prot flags : ℕ) :
    (sysMmap m p addr len prot flags).2.2 = p ∨
      ∃ virt q, mmapAddr p addr (pageAlign len) flags = .ok (virt, q) ∧
        (sysMmap m p addr len prot flags).2.2 = { q with vmas := (vmaCreate q.vmas virt
          (u64 (virt + pageAlign len)) (vmaProtOf prot) (vmaFlagsOf flags)).2 } := by
  unfold sysMmap
  split_ifs
  · exact Or.inl rfl
  dsimp only
  split
  · exact Or.inl rfl
  · rename_i virt q hok
    refine Or.inr ⟨virt, q, hok, ?_⟩
    split
    all_goals
      rename_i hcreate
      rw [hcreate]

/-- The range of a call that returns an address is not empty and does not wrap. -/
lemma sysMmap_ok (h : (sysMmap m p addr len prot flags).1 = .ok v) :
    (∃ q, mmapAddr p addr (pageAlign len) flags = .ok (v, q)) ∧ v < u64 (v + pageAlign len) := by
  unfold sysMmap at h
  split_ifs at h
  dsimp only at h
  split at h
  · cases h
  · rename_i virt q hok
    split at h
    · cases h
    · rename_i hcreate
      obtain rfl := Except.ok.inj h
      refine ⟨⟨q, hok⟩, ?_⟩
      by_contra hle
      rw [vmaCreate, if_pos (not_lt.mp hle)] at hcreate
      cases hcreate

/-! ## Runs -/

/-- A call that meets the condition keeps everything mapped below `mmap_curr_base`. -/
lemma vmaCall_belowBase (s : Mem × ProcVm) (c : VmaCall) (h : BelowBase s.2) (hc : CallBelow s c) :
    BelowBase (vmaCall s c).2 := by
  obtain ⟨m, p⟩ := s
  cases c with
  | mmap addr len prot flags =>
    rcases sysMmap_vm m p addr len prot flags with hsame | ⟨virt, q, hok, hvm⟩
    · rw [vmaCall, hsame]
      exact h
    rw [vmaCall, hvm]
    have hg := vmaCreate_grown q.vmas virt (u64 (virt + pageAlign len)) (vmaProtOf prot)
      (vmaFlagsOf flags)
    rcases mmapAddr_cases h hok with ⟨hfix, rfl, rfl⟩ | ⟨hhint, rfl, rfl⟩ | ⟨hfix, hhint, rfl, rfl⟩
    · rw [CallBelow, if_pos hfix] at hc
      exact ⟨h.aligned, h.lt, h.below.grown hg hc⟩
    · rw [CallBelow, if_neg (by simp [hhint.1]), if_pos hhint] at hc
      exact ⟨h.aligned, h.lt, h.below.grown hg hc.1⟩
    · rw [CallBelow, if_neg (by simp [hfix]), if_neg hhint] at hc
      have hu : u64 (p.mmapCurrBase + pageAlign len) = p.mmapCurrBase + pageAlign len :=
        Nat.mod_eq_of_lt hc
      refine ⟨?_, ?_, ?_⟩
      · exact dvd_u64_add h.aligned (dvd_pageAlign len)
      · exact hu.trans_lt hc
      · have hup : EndsBelow p.vmas (u64 (p.mmapCurrBase + pageAlign len)) := fun i hi =>
          (h.below i hi).trans (hu.symm ▸ Nat.le_add_right p.mmapCurrBase _)
        exact hup.grown hg le_rfl
  | munmap addr len =>
    rw [vmaCall, sysMunmap]
    split_ifs
    · exact h
    · exact ⟨h.aligned, h.lt, h.below.vmaRemove m _ _⟩
  | mprotect addr len prot =>
    rw [vmaCall, sysMprotect]
    split_ifs
    · exact h
    · exact ⟨h.aligned, h.lt, h.below.vmaProtect m _ hc⟩

/-- With everything mapped below `mmap_curr_base`, a call that meets the condition returns fresh
memory. -/
lemma returnsFresh_of_belowBase (s : Mem × ProcVm) (c : VmaCall) (h : BelowBase s.2)
    (hc : CallBelow s c) : ReturnsFresh s c := by
  obtain ⟨m, p⟩ := s
  cases c with
  | munmap addr len => trivial
  | mprotect addr len prot => trivial
  | mmap addr len prot flags =>
    rintro hflags v hret - x hx₁ hx₂ ⟨i, hu, hi₁, hi₂⟩
    obtain ⟨⟨q, hok⟩, -⟩ := sysMmap_ok hret
    rcases mmapAddr_cases h hok with ⟨hfix, -⟩ | ⟨hhint, rfl, -⟩ | ⟨-, -, rfl, -⟩
    · simp [hflags] at hfix
    · rw [CallBelow, if_neg (by simp [hflags]), if_pos hhint] at hc
      -- the area begins in the range, or it contains the hint
      by_cases hstart : v ≤ (p.vmas i).start
      · exact absurd (hi₁.trans_lt hx₂) (not_lt.mpr (hc.2 i hu hstart))
      · have hfind := List.find?_eq_none.mp hhint.2.2.2.2 i (List.mem_finRange i)
        refine hfind (Bool.and_eq_true_iff.mpr ⟨hu, decide_eq_true ⟨?_, ?_⟩⟩)
        · exact (not_le.mp hstart).le
        · exact hx₁.trans_lt hi₂
    · exact absurd (hi₂.trans_le (h.below i hu)) (not_lt.mpr hx₁)

lemma belowBase_init (pid : ℤ) : BelowBase (vmmInitProcess pid) where
  aligned := by
    show 4096 ∣ u64 (mmapBaseStart + (pid % 0x10000000000000000).toNat * 0x100000000)
    unfold u64 mmapBaseStart
    omega
  lt := Nat.mod_lt _ (by norm_num)
  below i hi := by cases hi

/-- **`SYS_MMAP` returns memory that was free**, in every run of memory calls from
`vmm_init_process` on in which nothing is placed above `mmap_curr_base` and no area begins in
the range at a hint. -/
theorem mmap_fresh_of_calls (m : Mem) (pid : ℤ) (calls : List VmaCall)
    (h : Runs.StepsMeet vmaCall CallBelow (m, vmmInitProcess pid) calls) :
    Runs.StepsMeet vmaCall ReturnsFresh (m, vmmInitProcess pid) calls :=
  Runs.stepsMeet_of_invariant (I := fun s : Mem × ProcVm => BelowBase s.2) vmaCall_belowBase
    returnsFresh_of_belowBase (belowBase_init pid) h

/-- Two pages, a page at a hint, the first page taken back, and a page that goes behind it all. -/
def hintBelowCalls : List VmaCall :=
  [.mmap 0 0x2000 3 0x22, .mmap 0x50000000 0x1000 3 0x22, .munmap 0x700100000000 0x1000,
    .mmap 0 0x1000 3 0x22]

theorem mmap_fresh_hintBelow :
    Runs.StepsMeet vmaCall ReturnsFresh (mmInit (fun _ => 0) fun _ => false, vmmInitProcess 1)
      hintBelowCalls :=
  mmap_fresh_of_calls _ 1 hintBelowCalls (by decide +kernel)

/-- A page at a hint just above `mmap_curr_base`, then two pages wherever there is room. -/
def hintAboveCalls : List VmaCall := [.mmap 0x700100001000 0x1000 3 0x22, .mmap 0 0x2000 3 0x22]

/-- `mmap_curr_base` has not moved, so the second mapping is put over the first. -/
theorem mmap_not_fresh_hintAbove :
    ¬ Runs.StepsMeet vmaCall ReturnsFresh (mmInit (fun _ => 0) fun _ => false, vmmInitProcess 1)
      hintAboveCalls := by
  rintro ⟨-, h, -⟩
  exact h rfl 0x700100000000 rfl (by norm_num) 0x700100001000 (by norm_num) (by decide +kernel)
    ⟨0, by decide +kernel, by decide +kernel⟩

end Bangos.Syscall
