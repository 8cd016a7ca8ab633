import Bangos.Fs.Ext2Alloc
import Bangos.Lib.Runs

/-!
# Allocation is exact

Any sequence of calls of `ext2_alloc_block` and `ext2_alloc_inode` on a volume of valid
geometry: a call that gives a number sets the bit of that number and no other, and counts it
off the group and the superblock; a call gives 0 when no group that claims to have something
left has a clear bit, and only then; and no number is given twice (`alloc_exact`).
-/

namespace Bangos.Fs

open ByteMem Bangos.Drivers Bangos.Mm

variable {fs fs' : Ext2} {g b : ℕ} {kind : BitmapKind}

/-- `s_free_blocks_count` and `s_free_inodes_count`. -/
def SuperBlock.freeCount (sb : SuperBlock) : BitmapKind → ℕ
  | .block => sb.sFreeBlocksCount
  | .inode => sb.sFreeInodesCount

/-- The call that allocates an entry of a kind. -/
def allocCall (fs : Ext2) : BitmapKind → ℕ × Ext2
  | .block => ext2AllocBlock fs
  | .inode => ext2AllocInode fs

/-- The number of the block or inode that bit `b` of group `g` stands for. -/
def SuperBlock.numberOf (sb : SuperBlock) (g b : ℕ) : BitmapKind → ℕ
  | .block => g * sb.sBlocksPerGroup + b + sb.sFirstDataBlock
  | .inode => g * sb.sInodesPerGroup + b + 1

/-- From `fs` to `fs'` bit `b` of group `g` has been taken and nothing else: no other bit of a
bitmap of any group has changed, and no other counter.  The counter of the superblock is a
`uint32_t` that nothing compares with those of the groups; it drops by one modulo `2 ^ 32`. -/
structure TakesExactly (fs fs' : Ext2) (kind : BitmapKind) (g b : ℕ) : Prop where
  wasClear : entryBit fs kind g b = false
  nowSet : entryBit fs' kind g b = true
  others : ∀ kind' g' b', g' < fs.groupCount → b' < 8 * fs.blockSize →
    ¬ (kind' = kind ∧ g' = g ∧ b' = b) → entryBit fs' kind' g' b' = entryBit fs kind' g' b'
  counter : (fs'.bgds g).freeCount kind + 1 = (fs.bgds g).freeCount kind
  counters : ∀ kind' g', ¬ (kind' = kind ∧ g' = g) →
    (fs'.bgds g').freeCount kind' = (fs.bgds g').freeCount kind'
  total : u32 (fs'.sb.freeCount kind + 1) = u32 (fs.sb.freeCount kind)
  total_pos : fs.sb.freeCount kind ≠ 0 → fs'.sb.freeCount kind + 1 = fs.sb.freeCount kind
  totals : ∀ kind', kind' ≠ kind → fs'.sb.freeCount kind' = fs.sb.freeCount kind'

/-- The call did what it should. -/
structure AllocExact (fs : Ext2) (kind : BitmapKind) (r : ℕ × Ext2) : Prop where
  zero_iff : r.1 = 0 ↔ ∀ g < fs.groupCount, Full fs kind g
  same : r.1 = 0 → r.2 = fs
  takes : r.1 ≠ 0 → ∃ g b, g < fs.groupCount ∧ b < fs.sb.perGroup kind ∧
    r.1 = fs.sb.numberOf g b kind ∧ TakesExactly fs r.2 kind g b

/-- Block 0 is marked used where it belongs to the first group. -/
def ZeroUsed (fs : Ext2) : Prop := fs.sb.sFirstDataBlock = 0 → entryBit fs .block 0 0 = true

/-- The counter of every group is the number of its clear bits. -/
def CountersMatch (fs : Ext2) : Prop :=
  ∀ kind, ∀ g < fs.groupCount, (fs.bgds g).freeCount kind = (clearBits fs kind g).card

/-! ## One call -/

lemma entryOf_eq_numberOf (hv : fs.layout.Allocates) (hg : g < fs.groupCount)
    (hb : b < fs.sb.perGroup kind) : fs.sb.entryOf g b kind = fs.sb.numberOf g b kind := by
  cases kind with
  | block =>
    have hfit : fs.groupCount * fs.sb.sBlocksPerGroup + fs.sb.sFirstDataBlock ≤ 2 ^ 32 :=
      hv.blocks_fit
    have hle : g * fs.sb.sBlocksPerGroup + fs.sb.sBlocksPerGroup ≤
        fs.groupCount * fs.sb.sBlocksPerGroup := by
      rw [← Nat.succ_mul]
      exact Nat.mul_le_mul_right _ hg
    change b < fs.sb.sBlocksPerGroup at hb
    exact Nat.mod_eq_of_lt (show _ < 0x100000000 by omega)
  | inode => exact (entryOf_inode hv hg hb).1

lemma numberOf_inj {sb : SuperBlock} {g' b' : ℕ} (hb : b < sb.perGroup kind)
    (hb' : b' < sb.perGroup kind) (h : sb.numberOf g b kind = sb.numberOf g' b' kind) :
    g = g' ∧ b = b' := by
  have hdiv : ∀ {n x y x' y' : ℕ}, y < n → y' < n → x * n + y = x' * n + y' →
      x = x' ∧ y = y' := by
    intro n x y x' y' hy hy' heq
    have h1 : (x * n + y) / n = x := by
      rw [Nat.mul_comm, Nat.mul_add_div (by omega), Nat.div_eq_of_lt hy, Nat.add_zero]
    have h2 : (x' * n + y') / n = x' := by
      rw [Nat.mul_comm, Nat.mul_add_div (by omega), Nat.div_eq_of_lt hy', Nat.add_zero]
    obtain rfl : x = x' := by rw [← h1, heq, h2]
    exact ⟨rfl, by omega⟩
  cases kind with
  | block => exact hdiv hb hb' (Nat.add_right_cancel h)
  | inode => exact hdiv hb hb' (Nat.add_right_cancel h)

lemma numberOf_ne_zero (hz : ZeroUsed fs) (hb : b < fs.sb.perGroup kind)
    (hbit : entryBit fs kind g b = false) : fs.sb.numberOf g b kind ≠ 0 := by
  cases kind with
  | inode => exact Nat.succ_ne_zero _
  | block =>
    intro h0
    change g * fs.sb.sBlocksPerGroup + b + fs.sb.sFirstDataBlock = 0 at h0
    change b < fs.sb.sBlocksPerGroup at hb
    obtain rfl : b = 0 := by omega
    have hg0 : g = 0 := by
      rcases Nat.mul_eq_zero.mp (show g * fs.sb.sBlocksPerGroup = 0 by omega) with h | h <;> omega
    subst hg0
    rw [hz (by omega)] at hbit
    exact Bool.noConfusion hbit

lemma freeCount_take_other {kind' : BitmapKind} {g' : ℕ} (h : ¬ (kind' = kind ∧ g' = g)) :
    ((fs.take kind g b).bgds g').freeCount kind' = (fs.bgds g').freeCount kind' := by
  by_cases hg : g' = g
  · -- the other counter of the group
    subst hg
    cases kind <;> cases kind'
    · exact absurd ⟨rfl, rfl⟩ h
    · exact field_update GroupDesc.bgFreeInodesCount (by rfl) g'
    · exact field_update GroupDesc.bgFreeBlocksCount (by rfl) g'
    · exact absurd ⟨rfl, rfl⟩ h
  · cases kind <;> exact congrArg (fun d => GroupDesc.freeCount d kind')
      (Function.update_of_ne hg _ fs.bgds)

/-- **Taking an entry** takes it and nothing else. -/
lemma takesExactly_take (hv : fs.layout.Allocates) (hg : g < fs.groupCount)
    (hb : b < fs.sb.perGroup kind) (hfree : (fs.bgds g).freeCount kind ≠ 0)
    (hbit : entryBit fs kind g b = false) : TakesExactly fs (fs.take kind g b) kind g b where
  wasClear := hbit
  nowSet := by
    rw [entryBit_take hv hg hg hb]
    simp
  others kind' g' b' hg' hb' hne := by
    rw [bitAt_take hv hg hg' hb', decide_eq_false hne, Bool.false_or]
  counter := freeCount_take_self fs kind g b hfree
  counters kind' g' hne := freeCount_take_other hne
  total := by
    have hdecr : ∀ x, u32 (decr 0xFFFFFFFF x + 1) = u32 x := by
      intro x
      unfold decr u32
      split_ifs <;> omega
    cases kind <;> exact hdecr _
  total_pos := by
    have hdecr : ∀ x, x ≠ 0 → decr 0xFFFFFFFF x + 1 = x := by
      intro x hx
      rw [decr, if_neg hx]
      omega
    cases kind <;> exact hdecr _
  totals kind' hne := by
    cases kind <;> cases kind' <;> first | rfl | exact absurd rfl hne

/-- **One call** is exact. -/
lemma allocExact_call (hv : fs.layout.Allocates) (hz : ZeroUsed fs) (kind : BitmapKind) :
    AllocExact fs kind (allocCall fs kind) := by
  have hcall : allocCall fs kind = allocLoop kind fs.groupCount 0 fs := by
    cases kind <;> rfl
  rw [hcall]
  rcases allocLoop_result hv kind fs.groupCount 0 (by omega) with
    ⟨h0, hfull⟩ | ⟨g, b, -, hg, hb, hfree, hbit, h⟩
  · have hall : ∀ g < fs.groupCount, Full fs kind g := fun g hg =>
      hfull g (Nat.zero_le _) (by omega)
    rw [h0]
    exact ⟨⟨fun _ => hall, fun _ => rfl⟩, fun _ => rfl, fun hne => absurd rfl hne⟩
  · rw [Nat.zero_add] at hg
    have hnum : fs.sb.entryOf g b kind = fs.sb.numberOf g b kind := entryOf_eq_numberOf hv hg hb
    have hne : fs.sb.entryOf g b kind ≠ 0 := by
      rw [hnum]
      exact numberOf_ne_zero hz hb hbit
    rw [h]
    refine ⟨⟨fun h0 => absurd h0 hne, fun hfull => ?_⟩, fun h0 => absurd h0 hne, fun _ => ?_⟩
    · rcases hfull g hg with h0 | hall
      · exact absurd h0 hfree
      · rw [hall b hb] at hbit
        exact Bool.noConfusion hbit
    · exact ⟨g, b, hg, hb, hnum, takesExactly_take hv hg hb hfree hbit⟩

/-! ## Every sequence of calls -/

/-- The volume, and what the calls have given so far. -/
structure AllocLog where
  fs : Ext2
  given : List (BitmapKind × ℕ)

/-- One call, recorded; a 0 gives nothing. -/
def allocStep (l : AllocLog) (kind : BitmapKind) : AllocLog where
  fs := (allocCall l.fs kind).2
  given := l.given ++ if (allocCall l.fs kind).1 = 0 then [] else [(kind, (allocCall l.fs kind).1)]

/-- The bit of every number given is set. -/
def GivenSet (l : AllocLog) : Prop :=
  ∀ x ∈ l.given, ∃ g b, g < l.fs.groupCount ∧ b < l.fs.sb.perGroup x.1 ∧
    x.2 = l.fs.sb.numberOf g b x.1 ∧ entryBit l.fs x.1 g b = true

/-- What holds along the sequence. -/
structure AllocInv (l : AllocLog) : Prop where
  geometry : l.fs.layout.Allocates
  zero : ZeroUsed l.fs
  set : GivenSet l
  nodup : l.given.Nodup

lemma TakesExactly.mono (h : TakesExactly fs fs' kind g b) {kind' : BitmapKind} {g' b' : ℕ}
    (hg' : g' < fs.groupCount) (hb' : b' < 8 * fs.blockSize)
    (hset : entryBit fs kind' g' b' = true) : entryBit fs' kind' g' b' = true := by
  by_cases hsame : kind' = kind ∧ g' = g ∧ b' = b
  · obtain ⟨rfl, rfl, rfl⟩ := hsame
    exact h.nowSet
  · rw [h.others kind' g' b' hg' hb' hsame, hset]

lemma allocCall_layout (hv : fs.layout.Allocates) (kind : BitmapKind) :
    (allocCall fs kind).2.layout = fs.layout := by
  have hcall : allocCall fs kind = allocLoop kind fs.groupCount 0 fs := by
    cases kind <;> rfl
  rw [hcall]
  rcases allocLoop_result hv kind fs.groupCount 0 (by omega) with
    ⟨h0, -⟩ | ⟨g, b, -, -, -, -, -, h⟩
  · rw [h0]
  · rw [h]
    exact take_layout fs kind g b

section Layout

variable (h : fs'.layout = fs.layout)
include h

lemma groupCount_of_layout : fs'.groupCount = fs.groupCount := congrArg Layout.groupCount h

lemma perGroup_of_layout (kind : BitmapKind) : fs'.sb.perGroup kind = fs.sb.perGroup kind := by
  cases kind with
  | block => exact congrArg Layout.blocksPerGroup h
  | inode => exact congrArg Layout.inodesPerGroup h

lemma numberOf_of_layout (g b : ℕ) (kind : BitmapKind) :
    fs'.sb.numberOf g b kind = fs.sb.numberOf g b kind := by
  have hfirst : fs'.sb.sFirstDataBlock = fs.sb.sFirstDataBlock :=
    congrArg Layout.firstDataBlock h
  have hblocks : fs'.sb.sBlocksPerGroup = fs.sb.sBlocksPerGroup :=
    congrArg Layout.blocksPerGroup h
  have hinodes : fs'.sb.sInodesPerGroup = fs.sb.sInodesPerGroup :=
    congrArg Layout.inodesPerGroup h
  cases kind <;> simp only [SuperBlock.numberOf, hfirst, hblocks, hinodes]

end Layout

/-- **One call** keeps what was given. -/
lemma allocInv_step {l : AllocLog} (h : AllocInv l) (kind : BitmapKind) :
    AllocInv (allocStep l kind) := by
  have hlay := allocCall_layout h.geometry kind
  have hex := allocExact_call h.geometry h.zero kind
  by_cases h0 : (allocCall l.fs kind).1 = 0
  · have hstep : allocStep l kind = l := by
      simp only [allocStep, hex.same h0, if_pos h0, List.append_nil]
    rw [hstep]
    exact h
  · obtain ⟨g, b, hg, hb, hnum, htake⟩ := hex.takes h0
    have hkeep : ∀ {kind' : BitmapKind} {g' b' : ℕ}, g' < l.fs.groupCount →
        b' < l.fs.sb.perGroup kind' → entryBit l.fs kind' g' b' = true →
        entryBit (allocCall l.fs kind).2 kind' g' b' = true := fun hg' hb' =>
      htake.mono hg' (lt_of_lt_of_le hb' (perGroup_le h.geometry _))
    -- a number that was given before has its bit set
    have hfresh : (kind, (allocCall l.fs kind).1) ∉ l.given := by
      intro hmem
      obtain ⟨g', b', -, hb', hnum', hset⟩ := h.set _ hmem
      obtain ⟨rfl, rfl⟩ := numberOf_inj hb hb' (hnum.symm.trans hnum')
      rw [htake.wasClear] at hset
      exact Bool.noConfusion hset
    have hstep : allocStep l kind =
        ⟨(allocCall l.fs kind).2, l.given ++ [(kind, (allocCall l.fs kind).1)]⟩ := by
      simp only [allocStep, if_neg h0]
    rw [hstep]
    refine ⟨?_, ?_, ?_, ?_⟩
    · rw [hlay]
      exact h.geometry
    · intro hfirst
      have hfirst' : l.fs.sb.sFirstDataBlock = 0 :=
        (congrArg Layout.firstDataBlock hlay).symm.trans hfirst
      refine htake.mono (Nat.lt_of_le_of_lt (Nat.zero_le _) hg) ?_ (h.zero hfirst')
      have : 0 < l.fs.blockSize := h.geometry.serves.blockSize_pos
      omega
    · intro x hx
      rcases List.mem_append.mp hx with hx | hx
      · obtain ⟨g', b', hg', hb', hn, hset⟩ := h.set x hx
        refine ⟨g', b', ?_, ?_, ?_, hkeep hg' hb' hset⟩
        · rwa [groupCount_of_layout hlay]
        · rwa [perGroup_of_layout hlay]
        · rwa [numberOf_of_layout hlay]
      · rw [List.mem_singleton] at hx
        subst hx
        refine ⟨g, b, ?_, ?_, ?_, htake.nowSet⟩
        · rwa [groupCount_of_layout hlay]
        · rwa [perGroup_of_layout hlay]
        · rwa [numberOf_of_layout hlay]
    · exact List.Nodup.append h.nodup (List.nodup_singleton _) (by simpa using hfresh)

lemma countersMatch_call (hv : fs.layout.Allocates) (hz : ZeroUsed fs) (hc : CountersMatch fs)
    (kind : BitmapKind) : CountersMatch (allocCall fs kind).2 := by
  have hlay := allocCall_layout hv kind
  have hex := allocExact_call hv hz kind
  by_cases h0 : (allocCall fs kind).1 = 0
  · rw [hex.same h0]
    exact hc
  · obtain ⟨g, b, hg, hb, -, htake⟩ := hex.takes h0
    intro kind' g' hg'
    rw [groupCount_of_layout hlay] at hg'
    have hbit : ∀ x < fs.sb.perGroup kind', ¬ (kind' = kind ∧ g' = g ∧ x = b) →
        entryBit (allocCall fs kind).2 kind' g' x = entryBit fs kind' g' x := fun x hx =>
      htake.others kind' g' x hg' (lt_of_lt_of_le hx (perGroup_le hv kind'))
    by_cases hsame : kind' = kind ∧ g' = g
    · obtain ⟨rfl, rfl⟩ := hsame
      have hclear : clearBits (allocCall fs kind').2 kind' g' = (clearBits fs kind' g').erase b := by
        ext x
        simp only [clearBits, Finset.mem_filter, Finset.mem_range, Finset.mem_erase,
          perGroup_of_layout hlay]
        by_cases hxb : x = b
        · subst hxb
          simp [htake.nowSet]
        · constructor
          · rintro ⟨hx, hxc⟩
            exact ⟨hxb, hx, by rwa [hbit x hx (by simp [hxb])] at hxc⟩
          · rintro ⟨-, hx, hxc⟩
            exact ⟨hx, by rwa [hbit x hx (by simp [hxb])]⟩
      have hmem : b ∈ clearBits fs kind' g' :=
        Finset.mem_filter.mpr ⟨Finset.mem_range.mpr hb, htake.wasClear⟩
      have hpos := Finset.card_pos.mpr ⟨b, hmem⟩
      have hone := htake.counter
      have hmatch := hc kind' g' hg'
      rw [hclear, Finset.card_erase_of_mem hmem]
      omega
    · have hclear : clearBits (allocCall fs kind).2 kind' g' = clearBits fs kind' g' := by
        unfold clearBits
        rw [perGroup_of_layout hlay]
        refine Finset.filter_congr fun x hx => ?_
        rw [hbit x (Finset.mem_range.mp hx) fun hn => hsame ⟨hn.1, hn.2.1⟩]
      rw [hclear, htake.counters kind' g' hsame]
      exact hc kind' g' hg'

/-- **Allocation is exact.**  After any sequence of calls on a volume of valid geometry, with
block 0 marked used where blocks count from 0, the next call is exact, whichever it is; the
numbers given are different from each other, block by block and inode by inode; and counters
that were equal to the numbers of clear bits still are. -/
theorem alloc_exact (hv : fs.layout.Allocates) (hz : ZeroUsed fs) (kinds : List BitmapKind) :
    let l := Runs.runFrom allocStep ⟨fs, []⟩ kinds
    (∀ kind, AllocExact l.fs kind (allocCall l.fs kind)) ∧ l.given.Nodup ∧
      (CountersMatch fs → CountersMatch l.fs) := by
  have hinit : AllocInv ⟨fs, []⟩ := ⟨hv, hz, fun x hx => absurd hx (by simp), List.nodup_nil⟩
  have hrun := Runs.invariant_runFrom_of_step (I := AllocInv)
    (fun l kind hl => allocInv_step hl kind) hinit kinds
  refine ⟨fun kind => allocExact_call hrun.geometry hrun.zero kind, hrun.nodup, fun hc => ?_⟩
  exact (Runs.invariant_runFrom_of_step (I := fun l => AllocInv l ∧ CountersMatch l.fs)
    (fun l kind hl => ⟨allocInv_step hl.1 kind,
      countersMatch_call hl.1.geometry hl.1.zero hl.2 kind⟩) ⟨hinit, hc⟩ kinds).2

/-- A volume of one group with six blocks and four inodes in use, as its counters say. -/
def usedVolume : Ext2 :=
  smallVolume (fun a => if a = 3 * 1024 then 0x3F else if a = 4 * 1024 then 0x0F else 0)
    (fun _ => ⟨0, zeros, [], 0, 0, false⟩) 0

lemma countersMatch_usedVolume : CountersMatch usedVolume := by
  intro kind g hg
  obtain rfl : g = 0 := Nat.lt_one_iff.mp hg
  cases kind <;> decide +kernel

theorem alloc_exact_usedVolume :
    let l := Runs.runFrom allocStep ⟨usedVolume, []⟩ [.block, .inode, .block]
    ((∀ kind, AllocExact l.fs kind (allocCall l.fs kind)) ∧ l.given.Nodup ∧ CountersMatch l.fs) ∧
      l.given = [(.block, 7), (.inode, 5), (.block, 8)] := by
  have hgeometry : usedVolume.layout.Allocates := (smallVolume_valid _ _ _).allocates
  obtain ⟨hexact, hnodup, hcounters⟩ := alloc_exact hgeometry (fun h => absurd h (by decide))
    [.block, .inode, .block]
  exact ⟨⟨hexact, hnodup, hcounters countersMatch_usedVolume⟩, by decide +kernel⟩

end Bangos.Fs
