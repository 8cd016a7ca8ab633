import Bangos.Lib.PathTree
import Bangos.Mm.Frames

/-!
# Page tables as a tree, and what they translate

`walk` is the processor's four-level walk with 2 MB leaves.  `Shape m T` says that the tables
reachable from `kernel_pml4` are the tree `T`: each is a frame of its own that the allocator
holds, an upper entry either leads to a child, or is not present, or is (in a page directory) a
2 MB leaf.  Paths are the indices from a table upwards, so that `[pd, pdpt, pml4]` is a page
table.

In a state of that shape the walk is read off the tree (`Shape.walk_eq`), and hanging a new
table into an empty or split entry keeps the shape and the walk (`Shape.addTable`,
`Shape.walk_addTable`).
-/

namespace Bangos.Mm

open ByteMem PathTree

/-! ## The walk -/

/-- The end of a translation: the 4 KB frame, and the rights of all levels together. -/
structure Pte where
  frame : ℕ
  writable : Bool
  user : Bool
deriving DecidableEq, Repr

/-- The page of an address, as far as the walk looks at it: bits 12 to 47. -/
def pageKey (virt : ℕ) : ℕ := virt / 4096 % 2 ^ 36

/-- The rights of a table entry. -/
def Pte.restrict (x : Pte) (e : ℕ) : Pte :=
  { x with writable := isWritable e && x.writable, user := isUser e && x.user }

/-- What an entry of a page table maps. -/
def leafPte (e : ℕ) : Option Pte :=
  if isPresent e then some ⟨frameOf e, isWritable e, isUser e⟩ else none

/-- What a 2 MB entry of a page directory maps at `virt`. -/
def hugePte (e virt : ℕ) : Option Pte :=
  if isPresent e then
    some ⟨e / 0x200000 * 0x200000 + virt % 0x200000 / 4096 * 4096, isWritable e, isUser e⟩
  else none

/-- The last two levels of the walk, from an entry `e` of a page directory. -/
def walkPd (m : Mem) (e virt : ℕ) : Option Pte :=
  if isHuge e then hugePte e virt
  else if isPresent e then
    (leafPte (entry m (frameOf e) (ptIdx virt))).map fun x => x.restrict e
  else none

/-- **The processor's walk** from `kernel_pml4`. -/
def walk (m : Mem) (virt : ℕ) : Option Pte :=
  let e4 := entry m m.kernelPml4 (pml4Idx virt)
  if isPresent e4 then
    let e3 := entry m (frameOf e4) (pdptIdx virt)
    if isPresent e3 then
      (walkPd m (entry m (frameOf e3) (pdIdx virt)) virt).map
        fun x => (x.restrict e3).restrict e4
    else none
  else none

/-- The address is canonical: its upper 17 bits agree. -/
def Canonical (virt : ℕ) : Prop :=
  virt < 0x800000000000 ∨ 0xFFFF800000000000 ≤ virt ∧ virt < 0x10000000000000000

instance (virt : ℕ) : Decidable (Canonical virt) := inferInstanceAs (Decidable (_ ∨ _))

/-- The translation of an address: the processor refuses one that is not canonical. -/
def translate (m : Mem) (virt : ℕ) : Option Pte := if Canonical virt then walk m virt else none

/-- The physical address to which `virt` is translated. -/
def physOf (m : Mem) (virt : ℕ) : Option ℕ :=
  (translate m virt).map fun x => x.frame + virt % 4096

/-- The byte at a virtual address, through the page tables. -/
def byteAt (m : Mem) (virt : ℕ) : Option UInt8 := (physOf m virt).map m.phys

/-- Byte `i` of an `int` that is stored at `virt`. -/
def storeIntByte (m : Mem) (virt v : ℕ) (b : ℕ → UInt8) (i : ℕ) : ℕ → UInt8 :=
  match physOf m (u64 (virt + i)) with
  | some a => Function.update b a (UInt8.ofNat (v / 256 ^ i))
  | none => b

/-- A store of an `int` through a pointer: its four bytes go where the page tables translate their
addresses, whatever their rights.  A byte whose page is not mapped is not stored: the page fault
that the store raises there is a step of its own that comes first. -/
def storeInt (m : Mem) (virt v : ℕ) : Mem :=
  { m with phys := (List.range 4).foldl (storeIntByte m virt v) m.phys }

@[simp] lemma storeInt_pageBitmap (m : Mem) (virt v : ℕ) :
    (storeInt m virt v).pageBitmap = m.pageBitmap := rfl

/-! ## Entries as numbers -/

variable {m m' : Mem} {T T' : List ℕ → Option ℕ} {p q : List ℕ} {t t' e f i j virt : ℕ}

lemma isPresent_eq (e : ℕ) : isPresent e = decide (e % 2 = 1) := by
  simp [isPresent, Nat.testBit_eq_decide_div_mod_eq]

lemma isWritable_eq (e : ℕ) : isWritable e = decide (e / 2 % 2 = 1) := by
  simp [isWritable, Nat.testBit_eq_decide_div_mod_eq]

lemma isUser_eq (e : ℕ) : isUser e = decide (e / 4 % 2 = 1) := by
  simp [isUser, Nat.testBit_eq_decide_div_mod_eq]

lemma isHuge_eq (e : ℕ) : isHuge e = decide (e / 128 % 2 = 1) := by
  simp [isHuge, Nat.testBit_eq_decide_div_mod_eq]

lemma lor_eq_add (h : t % 4096 = 0) (hf : f < 4096) : t ||| f = t + f := by
  obtain ⟨k, rfl⟩ : ∃ k, t = 2 ^ 12 * k := ⟨t / 4096, by omega⟩
  exact (Nat.two_pow_add_eq_or_of_lt hf k).symm

lemma tableEntry (h : t % 4096 = 0) :
    isPresent (t + 7) = true ∧ isWritable (t + 7) = true ∧ isUser (t + 7) = true ∧
      isHuge (t + 7) = false ∧ frameOf (t + 7) = t := by
  rw [isPresent_eq, isWritable_eq, isUser_eq, isHuge_eq, frameOf]
  simp only [decide_eq_true_eq, decide_eq_false_iff_not]
  omega

lemma hugeEntry (h : f % 0x200000 = 0) :
    isPresent (f + 0x87) = true ∧ isWritable (f + 0x87) = true ∧ isUser (f + 0x87) = true ∧
      isHuge (f + 0x87) = true ∧ (f + 0x87) / 0x200000 * 0x200000 = f := by
  rw [isPresent_eq, isWritable_eq, isUser_eq, isHuge_eq]
  simp only [decide_eq_true_eq]
  omega

lemma isPresent_zero : isPresent 0 = false := by decide

lemma isHuge_zero : isHuge 0 = false := by decide

lemma walk_congr_key {v : ℕ} (h : pageKey v = pageKey virt) : walk m v = walk m virt := by
  have h4 : pml4Idx v = pml4Idx virt := by unfold pml4Idx pageKey at *; omega
  have h3 : pdptIdx v = pdptIdx virt := by unfold pdptIdx pageKey at *; omega
  have h2 : pdIdx v = pdIdx virt := by unfold pdIdx pageKey at *; omega
  have h1 : ptIdx v = ptIdx virt := by unfold ptIdx pageKey at *; omega
  have h0 : v % 0x200000 / 4096 = virt % 0x200000 / 4096 := by unfold pageKey at h; omega
  simp only [walk, walkPd, hugePte, h4, h3, h2, h1, h0]

/-! ## Reading and writing entries -/

lemma entry_lt (m : Mem) (t i : ℕ) : entry m t i < 2 ^ 64 := le_lt m.phys _ 8

lemma entry_setEntry_self (m : Mem) (t i v : ℕ) : entry (setEntry m t i v) t i = v % 2 ^ 64 :=
  le_putLe_self m.phys _ 8 v

@[simp] lemma setEntry_pageBitmap (m : Mem) (t i v : ℕ) :
    (setEntry m t i v).pageBitmap = m.pageBitmap := rfl

@[simp] lemma setEntry_kernelPml4 (m : Mem) (t i v : ℕ) :
    (setEntry m t i v).kernelPml4 = m.kernelPml4 := rfl

lemma entry_setEntry_of_ne (ht : t % 4096 = 0) (ht' : t' % 4096 = 0) (hi : i < 512) (hj : j < 512)
    (hne : t' = t → j ≠ i) (v : ℕ) : entry (setEntry m t i v) t' j = entry m t' j := by
  refine le_putLe_of_disjoint ?_
  by_cases h : t' = t
  · have := hne h
    omega
  · omega

lemma entry_congr (hi : i < 512) (h : ∀ x, t ≤ x → x < t + 4096 → m'.phys x = m.phys x) :
    entry m' t i = entry m t i :=
  le_congr fun x h1 h2 => h x (by omega) (by omega)

/-! ## The shape of the tables -/

/-- `t` is a frame of the pool that the allocator has given out. -/
def Held (m : Mem) (t : ℕ) : Prop := ∃ k < maxPages, t = frameAddr k ∧ m.pageBitmap k = true

/-- The entry carries `PAGE_PRESENT`, `PAGE_WRITABLE` and `PAGE_USER`. -/
def Pwu (e : ℕ) : Prop := isPresent e = true ∧ isWritable e = true ∧ isUser e = true

/-- An entry that leads to the table `t`; the processor may set other bits of it. -/
def IsTableEntry (t e : ℕ) : Prop := Pwu e ∧ isHuge e = false ∧ frameOf e = t

/-- An entry above the page tables that leads to no table: not present, or a 2 MB page. -/
def IsLeafEntry (level e : ℕ) : Prop :=
  isPresent e = false ∧ isHuge e = false ∨ level = 2 ∧ isHuge e = true ∧ Pwu e

/-- The tables reachable from `kernel_pml4` are the tree `T`. -/
structure Shape (m : Mem) (T : List ℕ → Option ℕ) : Prop where
  root : T [] = some m.kernelPml4
  tree : IsTree T
  depth : ∀ {p t}, T p = some t → p.length ≤ 3
  index : ∀ {i p t}, T (i :: p) = some t → i < 512
  held : ∀ {p t}, T p = some t → Held m t
  child : ∀ {i p t t'}, T p = some t → T (i :: p) = some t' → IsTableEntry t' (entry m t i)
  leaf : ∀ {i p t}, T p = some t → p.length < 3 → i < 512 → T (i :: p) = none →
    IsLeafEntry p.length (entry m t i)

/-- The table at a path, by following the entries from `kernel_pml4`. -/
def tableAt (m : Mem) : List ℕ → Option ℕ
  | [] => some m.kernelPml4
  | i :: p =>
    (tableAt m p).bind fun t =>
      if isPresent (entry m t i) && !isHuge (entry m t i) then some (frameOf (entry m t i))
      else none

/-- The paths of tables: at most three indices below 512. -/
def IsPath (p : List ℕ) : Prop := p.length ≤ 3 ∧ ∀ i ∈ p, i < 512

instance (p : List ℕ) : Decidable (IsPath p) := inferInstanceAs (Decidable (_ ∧ _))

/-- The tables reachable from `kernel_pml4`. -/
def tables (m : Mem) (p : List ℕ) : Option ℕ := if IsPath p then tableAt m p else none

/-- The page tables are sound. -/
def TablesOk (m : Mem) : Prop := Shape m (tables m)

lemma isTableEntry_add (h : t % 4096 = 0) : IsTableEntry t (t + 7) := by
  obtain ⟨hp, hw, hu, hh, hf⟩ := tableEntry h
  exact ⟨⟨hp, hw, hu⟩, hh, hf⟩

lemma isLeafEntry_zero (level : ℕ) : IsLeafEntry level 0 := Or.inl ⟨isPresent_zero, isHuge_zero⟩

lemma Pwu.restrict (h : Pwu e) (x : Pte) : x.restrict e = x := by
  simp [Pte.restrict, h.2.1, h.2.2]

lemma frameAddr_mod (k : ℕ) : frameAddr k % 4096 = 0 := by
  unfold frameAddr physMemoryBase pageSize
  omega

lemma frameAddr_inj {k k' : ℕ} (h : frameAddr k = frameAddr k') : k = k' := by
  unfold frameAddr physMemoryBase pageSize at h
  omega

lemma Held.aligned (h : Held m t) : t % 4096 = 0 := by
  obtain ⟨k, -, rfl, -⟩ := h
  exact frameAddr_mod k

namespace Shape

variable (h : Shape m T)
include h

lemma aligned (hp : T p = some t) : t % 4096 = 0 := (h.held hp).aligned

/-- A state that has the same root and the same upper entries, and still holds the tables,
has the same shape. -/
lemma of_entries (hroot : m'.kernelPml4 = m.kernelPml4)
    (hent : ∀ p t i, T p = some t → p.length < 3 → i < 512 → entry m' t i = entry m t i)
    (hheld : ∀ p t, T p = some t → Held m' t) : Shape m' T where
  root := hroot ▸ h.root
  tree := h.tree
  depth := h.depth
  index := h.index
  held := hheld _ _
  child {i p t t'} hp hc := by
    have := h.depth hc
    rw [hent p t i hp (by simpa using this) (h.index hc)]
    exact h.child hp hc
  leaf hp hl hi hc := by
    rw [hent _ _ _ hp hl hi]
    exact h.leaf hp hl hi hc

end Shape

/-! ## The walk over a tree -/

/-- The page-directory-pointer table on the way to `virt`. -/
def path1 (virt : ℕ) : List ℕ := [pml4Idx virt]

/-- The page directory on the way to `virt`. -/
def path2 (virt : ℕ) : List ℕ := pdptIdx virt :: path1 virt

/-- The page table on the way to `virt`. -/
def path3 (virt : ℕ) : List ℕ := pdIdx virt :: path2 virt

lemma idx_lt (virt : ℕ) :
    pml4Idx virt < 512 ∧ pdptIdx virt < 512 ∧ pdIdx virt < 512 ∧ ptIdx virt < 512 := by
  unfold pml4Idx pdptIdx pdIdx ptIdx
  omega

/-- Two addresses of the same page are those with the same page table and index. -/
lemma pageKey_eq_iff {v : ℕ} :
    pageKey v = pageKey virt ↔ path3 v = path3 virt ∧ ptIdx v = ptIdx virt := by
  simp only [path3, path2, path1, List.cons.injEq, and_true]
  unfold pageKey pml4Idx pdptIdx pdIdx ptIdx
  omega

/-- What the walk finds in a tree of tables. -/
def walkTree (m : Mem) (T : List ℕ → Option ℕ) (virt : ℕ) : Option Pte :=
  match T (path3 virt) with
  | some t => leafPte (entry m t (ptIdx virt))
  | none =>
    match T (path2 virt) with
    | some t => hugePte (entry m t (pdIdx virt)) virt
    | none => none

namespace Shape

variable (h : Shape m T)
include h

lemma entry_root (h1 : T (path1 virt) = some t) :
    IsTableEntry t (entry m m.kernelPml4 (pml4Idx virt)) := h.child h.root h1

lemma entry_root_none (h1 : T (path1 virt) = none) :
    isPresent (entry m m.kernelPml4 (pml4Idx virt)) = false := by
  rcases h.leaf h.root (by simp) (idx_lt virt).1 h1 with he | ⟨hl, -⟩
  · exact he.1
  · cases hl

lemma entry_pdpt_none (h1 : T (path1 virt) = some t) (h2 : T (path2 virt) = none) :
    isPresent (entry m t (pdptIdx virt)) = false := by
  rcases h.leaf h1 (by simp [path1]) (idx_lt virt).2.1 h2 with he | ⟨hl, -⟩
  · exact he.1
  · simp [path1] at hl

lemma entry_pd_none (h2 : T (path2 virt) = some t) (h3 : T (path3 virt) = none) :
    isPresent (entry m t (pdIdx virt)) = false ∧ isHuge (entry m t (pdIdx virt)) = false ∨
      isHuge (entry m t (pdIdx virt)) = true ∧ Pwu (entry m t (pdIdx virt)) := by
  rcases h.leaf h2 (by simp [path2, path1]) (idx_lt virt).2.2.1 h3 with he | ⟨-, hf⟩
  · exact Or.inl he
  · exact Or.inr hf

lemma walkPd_eq (h2 : T (path2 virt) = some t) :
    walkPd m (entry m t (pdIdx virt)) virt = walkTree m T virt := by
  unfold walkTree walkPd
  cases h3 : T (path3 virt) with
  | some t3 =>
    obtain ⟨hpwu, hh, hf⟩ := h.child h2 h3
    rw [hh, hpwu.1, hf]
    simp [hpwu.restrict]
  | none =>
    simp only [h2]
    rcases h.entry_pd_none h2 h3 with ⟨hp, hh⟩ | ⟨hh, -⟩
    · rw [hh, hp]
      simp [hugePte, hp]
    · rw [hh]
      rfl

/-- **The walk is read off the tree.** -/
theorem walk_eq (virt : ℕ) : walk m virt = walkTree m T virt := by
  unfold walk
  cases h1 : T (path1 virt) with
  | none =>
    have h2 : T (path2 virt) = none := h.tree.child_none h1
    have h3 : T (path3 virt) = none := h.tree.child_none h2
    simp [h.entry_root_none h1, walkTree, h3, h2]
  | some t1 =>
    obtain ⟨hpwu1, -, hf1⟩ := h.entry_root h1
    simp only [hpwu1.1, hf1, if_true]
    cases h2 : T (path2 virt) with
    | none =>
      have h3 : T (path3 virt) = none := h.tree.child_none h2
      simp [h.entry_pdpt_none h1 h2, walkTree, h3, h2]
    | some t2 =>
      obtain ⟨hpwu2, -, hf2⟩ : IsTableEntry t2 (entry m t1 (pdptIdx virt)) := h.child h1 h2
      simp only [hpwu2.1, hf2, if_true, h.walkPd_eq h2]
      simp [hpwu1.restrict, hpwu2.restrict]

end Shape

/-! ## The tree is the one that is there -/

namespace Shape

variable (h : Shape m T)
include h

lemma isPath (hp : T p = some t) : IsPath p := by
  refine ⟨h.depth hp, ?_⟩
  induction p generalizing t with
  | nil => simp
  | cons i p ih =>
    obtain ⟨s, hs⟩ := h.tree.parent hp
    intro j hj
    rcases List.mem_cons.mp hj with rfl | hj
    · exact h.index hp
    · exact ih hs j hj

lemma tableAt_eq (hp : IsPath p) : tableAt m p = T p := by
  induction p with
  | nil => exact h.root.symm
  | cons i p ih =>
    obtain ⟨hlen, hidx⟩ := hp
    rw [List.length_cons] at hlen
    rw [tableAt, ih ⟨by omega, fun j hj => hidx j (List.mem_cons_of_mem i hj)⟩]
    cases ht : T p with
    | none => exact (h.tree.child_none ht).symm
    | some t =>
      cases hc : T (i :: p) with
      | some t' =>
        obtain ⟨hpwu, hh, hf⟩ := h.child ht hc
        simp [hpwu.1, hh, hf]
      | none =>
        rcases h.leaf ht (by omega) (hidx i List.mem_cons_self) hc with he | ⟨-, hh, -⟩
        · simp [he.1]
        · simp [hh]

lemma eq_tables : T = tables m := by
  funext p
  unfold tables
  by_cases hp : IsPath p
  · rw [if_pos hp, h.tableAt_eq hp]
  · rw [if_neg hp]
    cases ht : T p with
    | none => rfl
    | some t => exact absurd (h.isPath ht) hp

lemma tablesOk : TablesOk m := by
  have := h.eq_tables
  subst this
  exact h

end Shape

/-! ## A new table -/

/-- `m'` is `m` with the frame `k` taken and linked as a table at entry `i` of the table `t`
at the path `p`. -/
structure TableAdded (m m' : Mem) (T : List ℕ → Option ℕ) (p : List ℕ) (t i k : ℕ) : Prop where
  parent : T p = some t
  depth : p.length < 3
  index : i < 512
  absent : T (i :: p) = none
  inPool : k < maxPages
  free : m.pageBitmap k = false
  root : m'.kernelPml4 = m.kernelPml4
  bitmap : m'.pageBitmap = fun x => if k ≤ x ∧ x < k + 1 then true else m.pageBitmap x
  link : entry m' t i = frameAddr k + 7
  other : ∀ q s j, T q = some s → j < 512 → (s = t → j ≠ i) → entry m' s j = entry m s j

namespace TableAdded

variable {k : ℕ} (ha : TableAdded m m' T p t i k)
include ha

lemma held_of_held {s : ℕ} (hs : Held m s) : Held m' s := by
  obtain ⟨x, hx, rfl, hb⟩ := hs
  refine ⟨x, hx, rfl, ?_⟩
  rw [ha.bitmap]
  simp [hb]

lemma held_new : Held m' (frameAddr k) :=
  ⟨k, ha.inPool, rfl, by rw [ha.bitmap]; simp⟩

lemma fresh (h : Shape m T) (q : List ℕ) : T q ≠ some (frameAddr k) := by
  intro hq
  obtain ⟨x, -, hx, hb⟩ := h.held hq
  obtain rfl := frameAddr_inj hx
  exact absurd (ha.free.symm.trans hb) (by simp)

lemma freeFrames : freeFrames m' + 1 = freeFrames m :=
  freeFrames_of_marked ha.inPool
    (fun x h1 h2 => (show x = k by omega) ▸ ha.free) ha.bitmap

lemma shape (h : Shape m T) (hnew : p.length < 2 → ∀ j < 512, entry m' (frameAddr k) j = 0) :
    Shape m' (insert T (i :: p) (frameAddr k)) where
  root := by
    rw [insert_of_ne (by simp), ha.root]
    exact h.root
  tree := h.tree.insert ha.parent ha.absent (ha.fresh h)
  depth hq := by
    rcases insert_cases hq with ⟨rfl, -⟩ | ⟨-, hq⟩
    · have := ha.depth
      simpa using this
    · exact h.depth hq
  index hq := by
    rcases insert_cases hq with ⟨hq, -⟩ | ⟨-, hq⟩
    · obtain ⟨rfl, -⟩ := List.cons.inj hq
      exact ha.index
    · exact h.index hq
  held hq := by
    rcases insert_cases hq with ⟨-, rfl⟩ | ⟨-, hq⟩
    · exact ha.held_new
    · exact ha.held_of_held (h.held hq)
  child {j q s s'} hq hc := by
    rcases insert_cases hc with ⟨hjq, rfl⟩ | ⟨hjq, hTc⟩
    · -- the new table itself
      obtain ⟨rfl, rfl⟩ := List.cons.inj hjq
      rw [insert_of_ne (by simp), ha.parent] at hq
      obtain rfl := Option.some.inj hq
      rw [ha.link]
      exact isTableEntry_add (frameAddr_mod k)
    · -- an old child; its parent is an old table
      obtain ⟨s0, hs0⟩ := h.tree.parent hTc
      rw [insert_of_some ha.absent hs0] at hq
      obtain rfl := Option.some.inj hq
      rw [ha.other q s0 j hs0 (h.index hTc)]
      · exact h.child hs0 hTc
      · rintro rfl rfl
        obtain rfl := h.tree.inj hs0 ha.parent
        exact hjq rfl
  leaf {j q s} hq hl hj hc := by
    obtain ⟨hjq, hc⟩ := insert_eq_none hc
    rcases insert_cases hq with ⟨rfl, rfl⟩ | ⟨-, hTq⟩
    · rw [List.length_cons] at hl
      rw [hnew (by omega) j hj]
      exact isLeafEntry_zero _
    · rw [ha.other q s j hTq hj]
      · exact h.leaf hTq hl hj hc
      · rintro rfl rfl
        obtain rfl := h.tree.inj hTq ha.parent
        exact hjq rfl

lemma walk_eq (h : Shape m T) (hnew : p.length < 2 → ∀ j < 512, entry m' (frameAddr k) j = 0)
    (hleaf : ∀ virt, path3 virt = i :: p →
      leafPte (entry m' (frameAddr k) (ptIdx virt)) = hugePte (entry m t i) virt) :
    walk m' = walk m := by
  funext virt
  rw [(ha.shape h hnew).walk_eq, h.walk_eq, walkTree, walkTree]
  by_cases h3 : path3 virt = i :: p
  · -- the walk now ends in the new table
    obtain ⟨h3i, h3p⟩ := List.cons.inj h3
    rw [h3, insert_self, ha.absent, h3p, ha.parent, h3i]
    exact hleaf virt h3
  rw [insert_of_ne h3]
  cases hT3 : T (path3 virt) with
  | some s =>
    dsimp only
    rw [ha.other _ _ _ hT3 (idx_lt virt).2.2.2]
    rintro rfl
    have := congrArg List.length (h.tree.inj hT3 ha.parent)
    have hd := ha.depth
    simp [path3, path2, path1] at this
    omega
  | none =>
    dsimp only
    by_cases h2 : path2 virt = i :: p
    · have hlen : p.length < 2 := by
        have := congrArg List.length h2
        simp [path2, path1] at this
        omega
      rw [h2, insert_self, ha.absent]
      simp [hnew hlen _ (idx_lt virt).2.2.1, hugePte, isPresent_zero]
    · rw [insert_of_ne h2]
      cases hT2 : T (path2 virt) with
      | none => rfl
      | some s =>
        dsimp only
        rw [ha.other _ _ _ hT2 (idx_lt virt).2.2.1]
        rintro rfl hi
        refine h3 ?_
        rw [path3, h.tree.inj hT2 ha.parent, hi]

end TableAdded

end Bangos.Mm
