import Bangos.Mm.AreaMap
import Bangos.Process.IdentityMap

/-!
# Write rights of pages and of areas

Three paths write the rights of a page: `SYS_MMAP`, which maps its pages at once, the page fault
handler, and the sweep of `vma_protect` over pages that are there.  The last two take the rights
from the area; the first does not.  For a process whose areas are disjoint and that maps memory
for writing only, no page is writable that its area protects.
-/

namespace Bangos.Proc

open Bangos.Mm Bangos.Fs Bangos.Net Bangos.Loader Bangos.Syscall

variable {m m' : Mem} {T : List ℕ → Option ℕ} {vs : VmaTable} {start endAddr a p q : ℕ}
  {i : Fin maxProcessVmas}

/-- **Hardware grants no write that an area denies**: neither the page-table entry nor the
translation of an address in a used area is writable unless the area is. -/
def WritesAllowed (m : Mem) (vs : VmaTable) : Prop :=
  ∀ i, (vs i).used = true → ∀ a, (vs i).span.Has a → ∀ x,
    smallPage m a = some x ∨ walk m a = some x → x.writable = true → (vs i).prot.testBit 1 = true

/-! ## The protection of an address -/

/-- The address lies in an area with this protection. -/
def AreaProt (vs : VmaTable) (a q : ℕ) : Prop :=
  ∃ i, (vs i).used = true ∧ (vs i).span.Has a ∧ (vs i).prot = q

lemma AreaProt.covered (h : AreaProt vs a q) : Covered vs a := by
  obtain ⟨i, hu, ha, -⟩ := h
  exact ⟨i, hu, ha⟩

/-- In a table without overlaps the protection is that of the area. -/
lemma AreaProt.eq_of_has (h : AreaProt vs a q) (hwf : VmasWf vs) (hu : (vs i).used = true)
    (ha : (vs i).span.Has a) : q = (vs i).prot := by
  obtain ⟨j, huj, haj, rfl⟩ := h
  rw [hwf.eq_of_has huj hu haj ha]

lemma areaProt_update {v : VmArea} (h : AreaProt (Function.update vs i v) a q) :
    v.used = true ∧ v.span.Has a ∧ v.prot = q ∨
      ∃ j, j ≠ i ∧ (vs j).used = true ∧ (vs j).span.Has a ∧ (vs j).prot = q := by
  obtain ⟨j, hj⟩ := h
  by_cases hji : j = i
  · subst hji
    rw [Function.update_self] at hj
    exact Or.inl hj
  · rw [Function.update_of_ne hji] at hj
    exact Or.inr ⟨j, hji, hj⟩

/-- `vma_create` gives its protection to its range only. -/
lemma areaProt_vmaCreate {flags : ℕ} (h : AreaProt (vmaCreate vs start endAddr p flags).2 a q) :
    AreaProt vs a q ∨ q = p ∧ start ≤ a ∧ a < endAddr := by
  unfold vmaCreate at h
  split at h
  · exact Or.inl h
  split at h
  · rename_i i hfind
    have hjoins := List.find?_some hfind
    simp only [VmArea.joins, Bool.and_eq_true, Bool.or_eq_true, decide_eq_true_eq,
      beq_iff_eq] at hjoins
    obtain ⟨⟨⟨hu, hprot⟩, -⟩, hcase⟩ := hjoins
    rcases areaProt_update h with ⟨-, ha, hq⟩ | ⟨j, -, hj⟩
    · -- the area that the range joins has the same protection
      have hjoin : (VmArea.join (vs i) start endAddr).prot = (vs i).prot ∧
          ((vs i).span.Has a ∨ start ≤ a ∧ a < endAddr) := by
        unfold VmArea.join at ha ⊢
        split_ifs at ha ⊢ with hin hend <;> refine ⟨rfl, ?_⟩ <;>
          simp only [VmArea.span, Span.Has] at ha ⊢ <;> omega
      rw [hjoin.1] at hq
      rcases hjoin.2 with hold | hnew
      · exact Or.inl ⟨i, hu, hold, hq⟩
      · exact Or.inr ⟨hq.symm.trans hprot, hnew⟩
    · exact Or.inl ⟨j, hj⟩
  · split at h
    · rcases areaProt_update h with ⟨-, ha, hq⟩ | ⟨j, -, hj⟩
      · exact Or.inr ⟨hq.symm, ha⟩
      · exact Or.inl ⟨j, hj⟩
    · exact Or.inl h

/-- A turn of `vma_remove` gives no address another protection. -/
lemma areaProt_vmaCut (hmeets : (vs i).meets start endAddr = true)
    (h : AreaProt (vmaCut vs start endAddr i) a q) : AreaProt vs a q := by
  obtain ⟨hu, hlo, hhi⟩ := VmArea.meets_iff.mp hmeets
  have hin : (vs i).start ≤ a → a < (vs i).endAddr → (vs i).prot = q → AreaProt vs a q :=
    fun h1 h2 h3 => ⟨i, hu, ⟨h1, h2⟩, h3⟩
  unfold vmaCut at h
  dsimp only at h
  split_ifs at h with h₁ h₂ h₃
  · rcases areaProt_update h with ⟨hf, -⟩ | ⟨j, -, hj⟩
    · cases hf
    · exact ⟨j, hj⟩
  · rcases areaProt_update h with ⟨-, ha, hq⟩ | ⟨j, -, hj⟩
    · exact hin (hhi.le.trans ha.1) ha.2 hq
    · exact ⟨j, hj⟩
  · rcases areaProt_update h with ⟨-, ha, hq⟩ | ⟨j, -, hj⟩
    · exact hin ha.1 (ha.2.trans hlo) hq
    · exact ⟨j, hj⟩
  · rcases areaProt_vmaCreate h with hc | ⟨hq, h1, h2⟩
    · rcases areaProt_update hc with ⟨-, ha, hq⟩ | ⟨j, -, hj⟩
      · exact hin ha.1 (ha.2.trans hlo) hq
      · exact ⟨j, hj⟩
    · exact hin (hhi.le.trans h1) h2 hq.symm

/-- A turn of `vma_protect` gives the new protection to what it protects of its area (and to the
rest of the range behind an area of which it protects the tail); what has another protection
afterwards had it before and is not in the range. -/
lemma areaProt_vmaReprotect (hwf : VmasWf vs) (hmeets : (vs i).meets start endAddr = true)
    (h : AreaProt (vmaReprotect vs start endAddr p i) a q) :
    (q = p ∧ (start ≤ a ∧ a < endAddr ∧ (vs i).span.Has a ∨
      Tail vs start endAddr i ∧ (vs i).endAddr ≤ a ∧ a < endAddr)) ∨
    AreaProt vs a q ∧ ¬ (start ≤ a ∧ a < endAddr ∧ (vs i).span.Has a) := by
  obtain ⟨hu, hlo, hhi⟩ := VmArea.meets_iff.mp hmeets
  -- what another area holds is not in this one
  have hother : (∃ j, j ≠ i ∧ (vs j).used = true ∧ (vs j).span.Has a ∧ (vs j).prot = q) →
      AreaProt vs a q ∧ ¬ (start ≤ a ∧ a < endAddr ∧ (vs i).span.Has a) := by
    rintro ⟨j, hji, huj, haj, hq⟩
    exact ⟨⟨j, huj, haj, hq⟩, fun hc => hji (hwf.eq_of_has huj hu haj hc.2.2)⟩
  -- what the area keeps lies before or behind the range
  have hkept : (vs i).start ≤ a → a < (vs i).endAddr → (vs i).prot = q →
      (a < start ∨ endAddr ≤ a) →
      AreaProt vs a q ∧ ¬ (start ≤ a ∧ a < endAddr ∧ (vs i).span.Has a) :=
    fun h1 h2 h3 h4 => ⟨⟨i, hu, ⟨h1, h2⟩, h3⟩, by omega⟩
  have hspan : (vs i).span.Has a ↔ (vs i).start ≤ a ∧ a < (vs i).endAddr := Iff.rfl
  unfold vmaReprotect at h
  dsimp only at h
  split_ifs at h with h₁ h₂ h₃
  · rcases areaProt_update h with ⟨-, ⟨ha, hb⟩, hq⟩ | hj
    · dsimp only [VmArea.span] at ha hb
      exact Or.inl ⟨hq.symm, Or.inl ⟨by omega, by omega, ha, hb⟩⟩
    · exact Or.inr (hother hj)
  · rcases areaProt_vmaCreate h with hc | ⟨hq, h1, h2⟩
    · rcases areaProt_update hc with ⟨-, ⟨ha, hb⟩, hq⟩ | hj
      · dsimp only [VmArea.span] at ha hb
        exact Or.inl ⟨hq.symm, Or.inl ⟨by omega, hb, ha, hb.trans h₂.2⟩⟩
      · exact Or.inr (hother hj)
    · exact Or.inr (hkept (by omega) h2 hq.symm (Or.inr h1))
  · rcases areaProt_vmaCreate h with hc | ⟨hq, h1, h2⟩
    · rcases areaProt_update hc with ⟨-, ⟨ha, hb⟩, hq⟩ | hj
      · dsimp only [VmArea.span] at ha hb
        exact Or.inr (hkept ha (hb.trans hlo) hq (Or.inl hb))
      · exact Or.inr (hother hj)
    · by_cases hin : a < (vs i).endAddr
      · exact Or.inl ⟨hq, Or.inl ⟨h1, h2, hspan.mpr ⟨by omega, hin⟩⟩⟩
      · exact Or.inl ⟨hq, Or.inr ⟨⟨hu, h₃.1, hlo, by omega⟩, by omega, h2⟩⟩
  · rcases areaProt_vmaCreate h with hc | ⟨hq, h1, h2⟩
    · rcases areaProt_vmaCreate hc with hc | ⟨hq, h1, h2⟩
      · rcases areaProt_update hc with ⟨-, ⟨ha, hb⟩, hq⟩ | hj
        · dsimp only [VmArea.span] at ha hb
          exact Or.inr (hkept ha (hb.trans hlo) hq (Or.inl hb))
        · exact Or.inr (hother hj)
      · exact Or.inl ⟨hq, Or.inl ⟨h1, h2, hspan.mpr (by omega)⟩⟩
    · exact Or.inr (hkept (by omega) h2 hq.symm (Or.inr h1))

/-! ## The sweep over the pages -/

/-- The page of the address is mapped, and writable. -/
def Grants (m : Mem) (a : ℕ) : Prop := ∃ x, walk m a = some x ∧ x.writable = true

lemma Grants.of_walk_eq (he : walk m' a = walk m a) (h : Grants m' a) : Grants m a := by
  obtain ⟨x, hx, hw⟩ := h
  exact ⟨x, he ▸ hx, hw⟩

/-- The sweep gives the 4 KB pages of its run the new rights and keeps all other pages. -/
lemma walk_protectPages (h : Shape m T) (addr prot n v : ℕ) :
    walk (protectPages m addr (pteFlags prot) n) v = walk m v ∧
        (∀ j < n, pageKey v = pageKey (addr + j * pageSize) → smallPage m v = none) ∨
      (∃ j < n, pageKey v = pageKey (addr + j * pageSize)) ∧
        ∃ x, walk (protectPages m addr (pteFlags prot) n) v = some x ∧
          x.writable = prot.testBit 1 := by
  induction n with
  | zero => exact Or.inl ⟨rfl, fun j hj => by omega⟩
  | succ n ih =>
    have hs := (protectPages_sameFrames (P := fun _ => True) h addr prot n fun _ _ => trivial).shape
    obtain ⟨-, hw⟩ := modifyPageFlags_spec hs (addr + n * pageSize) (pteFlags_lt prot)
    rw [protectPages]
    by_cases hk : pageKey v = pageKey (addr + n * pageSize)
    · -- the page of this turn
      have hsmall : smallPage (protectPages m addr (pteFlags prot) n) (addr + n * pageSize) =
          smallPage (protectPages m addr (pteFlags prot) n) v := by
        obtain ⟨hp, hi⟩ := pageKey_eq_iff.mp hk
        rw [hs.smallPage_eq, hs.smallPage_eq, hp, walk_congr_key hk]
      cases hx : smallPage (protectPages m addr (pteFlags prot) n) (addr + n * pageSize) with
      | some x =>
        refine Or.inr ⟨⟨n, by omega, hk⟩, ⟨x.frame, prot.testBit 1, true⟩, ?_, rfl⟩
        rw [walk_congr_key hk]
        exact walk_modifyPageFlags_self hs prot hx
      | none =>
        have hsame := hw v
        rw [if_pos hk, hx] at hsame
        dsimp only at hsame
        rw [hsame]
        rcases ih with ⟨he, hnone⟩ | ⟨⟨j, hj, hkj⟩, hx'⟩
        · refine Or.inl ⟨he, fun j hj hkj => ?_⟩
          rw [hsmall, hs.smallPage_eq, he, ← h.smallPage_eq] at hx
          exact hx
        · exact Or.inr ⟨⟨j, by omega, hkj⟩, hx'⟩
    · rw [hw v, if_neg hk]
      rcases ih with ⟨he, hnone⟩ | ⟨⟨j, hj, hkj⟩, hx'⟩
      · refine Or.inl ⟨he, fun j hj hkj => hnone j ?_ hkj⟩
        by_contra hjn
        obtain rfl : j = n := by omega
        exact hk hkj
      · exact Or.inr ⟨⟨j, by omega, hkj⟩, hx'⟩

/-! ## The invariant -/

/-- The areas are well formed and below `2 ^ 48`, the tables are sound, and a page that grants
writes lies in no area that denies them. -/
structure RightsInv (m : Mem) (vs : VmaTable) : Prop where
  wf : VmasWf vs
  lower : ∀ a, Covered vs a → a < 2 ^ 48
  tablesOk : TablesOk m
  allowed : ∀ a q, AreaProt vs a q → Grants m a → q.testBit 1 = true

lemma RightsInv.writesAllowed (h : RightsInv m vs) : WritesAllowed m vs := by
  intro i hu a ha x hx hw
  have hwalk : walk m a = some x := hx.elim h.tablesOk.walk_of_smallPage id
  exact h.allowed a _ ⟨i, hu, ha, rfl⟩ ⟨x, hwalk, hw⟩

/-- Two addresses below `2 ^ 48` on one page are in the same page-aligned range. -/
lemma same_page {b s e : ℕ} (hs : 4096 ∣ s) (he : 4096 ∣ e) (ha : a < 2 ^ 48) (hb : b < 2 ^ 48)
    (hk : pageKey a = pageKey b) (h : s ≤ b ∧ b < e) : s ≤ a ∧ a < e := by
  unfold pageKey at hk
  omega

/-- What `vma_protect` needs besides: where it protects the tail of an area, the range ends below
`2 ^ 48`; and when it takes write rights away, the writable pages of the range are 4 KB pages and
none of them lies behind an area of which it protects the tail. -/
structure ProtectFits (m : Mem) (vs : VmaTable) (start endAddr newProt : ℕ) : Prop where
  lower : ∀ i, Tail vs start endAddr i → endAddr ≤ 2 ^ 48
  small : newProt.testBit 1 = false → ∀ a, start ≤ a → a < endAddr → Grants m a →
    smallPage m a ≠ none
  behind : newProt.testBit 1 = false → ∀ i, Tail vs start endAddr i → ∀ a,
    (vs i).endAddr ≤ a → a < endAddr → ¬ Grants m a

/-- The `n` pages from `b` on are those of the range in the area. -/
structure Sweeps (v : VmArea) (start endAddr b n : ℕ) : Prop where
  inside : ∀ j < n, start ≤ b + j * pageSize ∧ b + j * pageSize < endAddr ∧
    v.span.Has (b + j * pageSize)
  all : ∀ a, start ≤ a → a < endAddr → v.span.Has a → ∃ j < n, pageKey a = pageKey (b + j * pageSize)

/-- A turn of `vma_protect` goes through the pages of the range in its area. -/
lemma sweeps_turn {v : VmArea} (hr : PageRange start endAddr) (hmeets : v.meets start endAddr = true)
    (hal : 4096 ∣ v.start) (hae : 4096 ∣ v.endAddr) :
    Sweeps v start endAddr (max start v.start)
      ((min endAddr v.endAddr - max start v.start + (pageSize - 1)) / pageSize) := by
  obtain ⟨-, hlo, hhi⟩ := VmArea.meets_iff.mp hmeets
  have hlt := hr.lt
  have hds := hr.dvd_start
  have hde := hr.dvd_end
  generalize hb : max start v.start = b
  generalize hn : (min endAddr v.endAddr - b + (pageSize - 1)) / pageSize = n
  constructor
  · intro j hj
    unfold pageSize at hn ⊢
    change _ ∧ _ ∧ v.start ≤ _ ∧ _ < v.endAddr
    omega
  · intro a h1 h2 ⟨h3, h4⟩
    dsimp only [VmArea.span] at h3 h4
    refine ⟨(a - b) / 4096, ?_, ?_⟩
    · unfold pageSize at hn
      omega
    · unfold pageKey pageSize
      omega

/-- Without write rights a sweep only takes rights away, and where it has left them there is no page
of 4 KB. -/
lemma Grants.of_protectPages {newProt b n : ℕ} (hok : TablesOk m) (h0 : newProt.testBit 1 = false)
    (hg : Grants (protectPages m b (pteFlags newProt) n) a) :
    walk (protectPages m b (pteFlags newProt) n) a = walk m a ∧ Grants m a ∧
      ∀ j < n, pageKey a = pageKey (b + j * pageSize) → smallPage m a = none := by
  obtain ⟨x, hx, hw⟩ := hg
  rcases walk_protectPages hok b newProt n a with ⟨he, hnone⟩ | ⟨-, y, hy, hyw⟩
  · exact ⟨he, ⟨x, he ▸ hx, hw⟩, hnone⟩
  · obtain rfl : x = y := Option.some.inj (hx.symm.trans hy)
    exact absurd (hw.symm.trans (hyw.trans h0)) (by simp)

/-- The condition on the call holds on after the turn of an area. -/
lemma ProtectFits.turn {newProt : ℕ} {i : Fin maxProcessVmas} (hok : TablesOk m)
    (hr : PageRange start endAddr) (hfit : ProtectFits m vs start endAddr newProt)
    (hmeets : (vs i).meets start endAddr = true) (b n : ℕ) :
    ProtectFits (protectPages m b (pteFlags newProt) n) (vmaReprotect vs start endAddr newProt i)
      start endAddr newProt := by
  have hshape := (protectPages_sameFrames (P := fun _ => True) hok b newProt n fun _ _ => trivial).shape
  have htail : ∀ j, Tail (vmaReprotect vs start endAddr newProt i) start endAddr j →
      Tail vs start endAddr j ∧ vmaReprotect vs start endAddr newProt i j = vs j :=
    fun j ht => ⟨ht.of_reprotect hmeets hr.lt, (vmaReprotect_tail hmeets hr.lt ht).2⟩
  refine ⟨fun j ht => hfit.lower j (htail j ht).1, fun h0 a h1 h2 hg => ?_,
    fun h0 j ht a h1 h2 hg => ?_⟩
  · obtain ⟨he, hm, -⟩ := hg.of_protectPages hok h0
    rw [hshape.smallPage_eq, he, ← hok.smallPage_eq]
    exact hfit.small h0 a h1 h2 hm
  · obtain ⟨htj, hj⟩ := htail j ht
    rw [hj] at h1
    exact hfit.behind h0 j htj a h1 h2 (hg.of_protectPages hok h0).2.1

/-- A turn of `vma_protect` keeps the invariant. -/
lemma vmaProtectStep_inv {newProt : ℕ} {s : Mem × VmaTable} (h : RightsInv s.1 s.2)
    (hr : PageRange start endAddr) (hfree : TailFree s.2 start endAddr)
    (hfit : ProtectFits s.1 s.2 start endAddr newProt) (i : Fin maxProcessVmas) :
    RightsInv (vmaProtectStep start endAddr newProt s i).1
        (vmaProtectStep start endAddr newProt s i).2 ∧
      TailFree (vmaProtectStep start endAddr newProt s i).2 start endAddr ∧
      ProtectFits (vmaProtectStep start endAddr newProt s i).1
        (vmaProtectStep start endAddr newProt s i).2 start endAddr newProt := by
  obtain ⟨m, vs⟩ := s
  dsimp only at h hfree hfit
  unfold vmaProtectStep
  dsimp only
  by_cases hmeets : (vs i).meets start endAddr = true
  swap
  · rw [if_neg hmeets]
    exact ⟨h, hfree, hfit⟩
  rw [if_pos hmeets]
  obtain ⟨hu, -, -⟩ := VmArea.meets_iff.mp hmeets
  obtain ⟨hal, hae⟩ := h.wf.aligned i hu
  have hsweeps := sweeps_turn hr hmeets hal hae
  dsimp only
  generalize max start (vs i).start = b at hsweeps ⊢
  generalize (min endAddr (vs i).endAddr - b + (pageSize - 1)) / pageSize = n at hsweeps ⊢
  have hshape := (protectPages_sameFrames (P := fun _ => True) h.tablesOk b newProt n
    fun _ _ => trivial).shape
  have hlower : ∀ a, Covered (vmaReprotect vs start endAddr newProt i) a → a < 2 ^ 48 := by
    intro a ha
    rcases vmaReprotect_covered hmeets ha with hc | ⟨ht, -, hc⟩
    · exact h.lower a hc
    · exact hc.trans_le (hfit.lower i ht)
  refine ⟨⟨vmaReprotect_wf h.wf hr hfree hmeets newProt, hlower, hshape.tablesOk, ?_⟩,
    vmaReprotect_tailFree h.wf hr hfree hmeets newProt, hfit.turn h.tablesOk hr hmeets b n⟩
  intro a q hq hg
  by_contra hdeny
  rw [Bool.not_eq_true] at hdeny
  rcases areaProt_vmaReprotect h.wf hmeets hq with ⟨rfl, hin | ⟨ht, h1, h2⟩⟩ | ⟨hold, hout⟩
  · obtain ⟨-, hm, hnone⟩ := hg.of_protectPages h.tablesOk hdeny
    obtain ⟨j, hj, hk⟩ := hsweeps.all a hin.1 hin.2.1 hin.2.2
    exact hfit.small hdeny a hin.1 hin.2.1 hm (hnone j hj hk)
  · exact hfit.behind hdeny i ht a h1 h2 (hg.of_protectPages h.tablesOk hdeny).2.1
  · rcases walk_protectPages h.tablesOk b newProt n a with ⟨he, -⟩ | ⟨⟨j, hj, hk⟩, -⟩
    · exact absurd (h.allowed a q hold (hg.of_walk_eq he)) (by simp [hdeny])
    · -- a page of the sweep is in the area and in the range
      obtain ⟨h1, h2, h3⟩ := hsweeps.inside j hj
      have hb48 := h.lower _ ⟨i, hu, h3⟩
      have ha48 := h.lower a hold.covered
      obtain ⟨h4, h5⟩ := same_page hr.dvd_start hr.dvd_end ha48 hb48 hk ⟨h1, h2⟩
      exact hout ⟨h4, h5, same_page hal hae ha48 hb48 hk h3⟩

/-! ## The calls -/

/-- The condition on the range holds on for the turns that are left. -/
lemma vmaProtect_inv {newProt : ℕ} (h : RightsInv m vs) (hs : 4096 ∣ start) (he : 4096 ∣ endAddr)
    (hap : TailApart vs start endAddr) (hfit : ProtectFits m vs start endAddr newProt) :
    RightsInv (vmaProtect m vs start endAddr newProt).2.1
      (vmaProtect m vs start endAddr newProt).2.2 := by
  unfold vmaProtect
  split_ifs with hlt
  · exact h
  have hr : PageRange start endAddr := ⟨not_le.mp hlt, hs, he⟩
  exact (List.foldlRecOn (motive := fun s : Mem × VmaTable => RightsInv s.1 s.2 ∧
      TailFree s.2 start endAddr ∧ ProtectFits s.1 s.2 start endAddr newProt) _ _
    ⟨h, hap.free, hfit⟩ fun s hs i _ => vmaProtectStep_inv hs.1 hr hs.2.1 hs.2.2 i).1

lemma sysMprotect_inv {vm : ProcVm} {addr len prot : ℕ} (h : RightsInv m vm.vmas)
    (hap : TailApart vm.vmas addr (u64 (addr + pageAlign len)))
    (hfit : ProtectFits m vm.vmas addr (u64 (addr + pageAlign len)) (prot % 0x100000000)) :
    RightsInv (sysMprotect m vm addr len prot).2.1 (sysMprotect m vm addr len prot).2.2.vmas := by
  unfold sysMprotect
  split_ifs with hbad
  · exact h
  have hal : 4096 ∣ addr := by omega
  exact vmaProtect_inv h hal (dvd_u64_add hal (dvd_pageAlign len)) hap hfit

lemma areaProt_vmaRemove (h : AreaProt (vmaRemove m vs start endAddr).2.2 a q) :
    AreaProt vs a q := by
  unfold vmaRemove at h
  split_ifs at h
  · exact h
  refine List.foldlRecOn (motive := fun s : Mem × VmaTable => AreaProt s.2 a q → AreaProt vs a q)
    _ _ id (fun s hs i _ hi => ?_) h
  unfold vmaRemoveStep at hi
  dsimp only at hi
  split_ifs at hi with hmeets
  · exact hs (areaProt_vmaCut hmeets hi)
  · exact hs hi

lemma sysMunmap_inv {vm : ProcVm} {addr len : ℕ} (h : RightsInv m vm.vmas)
    (hno : NoTable (tables m) (CoveredIn vm.vmas addr (u64 (addr + pageAlign len))) m) :
    RightsInv (sysMunmap m vm addr len).2.1 (sysMunmap m vm addr len).2.2.vmas := by
  have hwf := sysMunmap_wf m addr len h.wf
  unfold sysMunmap at hwf ⊢
  split_ifs at hwf ⊢ with hbad
  · exact h
  have hu := vmaRemove_unmaps h.tablesOk (Nat.mod_lt _ (by norm_num)).le hno
  refine ⟨hwf, fun a ha => ?_, hu.shape.tablesOk, fun a q hq hg => ?_⟩
  · obtain ⟨i, hi, hia⟩ := ha
    exact h.lower a (areaProt_vmaRemove ⟨i, hi, hia, rfl⟩).covered
  · refine h.allowed a q (areaProt_vmaRemove hq) ?_
    rcases hu.walk a with he | ⟨hnone, -⟩
    · exact hg.of_walk_eq he
    · obtain ⟨x, hx, -⟩ := hg
      exact absurd (hnone.symm.trans hx) (by simp)

/-- A page fault takes the rights from the area. -/
lemma vmmHandlePageFault_inv (h : RightsInv m vs) (active : Bool) (faultAddr errorCode : ℕ)
    (hroom : faultAllowed vs active faultAddr errorCode = true → 0 < freeFrames m →
      (missing (tables m) (tablesOf (frameOf faultAddr))).card + 1 ≤ freeFrames m) :
    RightsInv (vmmHandlePageFault m vs active faultAddr errorCode).2 vs := by
  obtain ⟨hok, hw⟩ := vmmHandlePageFault_walk h.tablesOk vs active faultAddr errorCode hroom
  refine ⟨h.wf, h.lower, hok, fun a q hq hg => ?_⟩
  rcases hw a with he | ⟨hk, i, frame, hfind, he⟩
  · exact h.allowed a q hq (hg.of_walk_eq he)
  · -- the address is on the page of the fault, hence in the area found
    obtain ⟨hu, hi⟩ := vmaFind_eq_some hfind
    obtain ⟨hal, hae⟩ := h.wf.aligned i hu
    have ha : (vs i).span.Has a :=
      same_page hal hae (h.lower a hq.covered) (h.lower _ ⟨i, hu, hi⟩) hk hi
    obtain ⟨x, hx, hxw⟩ := hg
    obtain rfl := Option.some.inj (he.symm.trans hx)
    rw [hq.eq_of_has h.wf hu ha]
    exact hxw

lemma vmaProtOf_testBit (prot : ℕ) : (vmaProtOf prot).testBit 1 = prot.testBit 1 := by
  unfold vmaProtOf vmaProtRead vmaProtWrite vmaProtExec
  cases prot.testBit 0 <;> cases prot.testBit 1 <;> cases prot.testBit 2 <;> rfl

/-- The range of an area that `vma_create` has made or joined holds no address with another
protection. -/
lemma vmaCreate_apart {flags : ℕ} (hwf : VmasWf vs) (hfits : VmaFits vs start endAddr p flags)
    {j : Fin maxProcessVmas} {vs' : VmaTable}
    (hc : vmaCreate vs start endAddr p flags = (some j, vs')) (h : AreaProt vs a q) (hne : q ≠ p) :
    start < endAddr ∧ ¬ (start ≤ a ∧ a < endAddr) := by
  have hlt : start < endAddr := by
    by_contra hle
    rw [vmaCreate, if_pos (not_lt.mp hle)] at hc
    cases hc
  refine ⟨hlt, fun hin => ?_⟩
  obtain ⟨i, hu, hi, rfl⟩ := h
  rcases hfits with hle | hap | ⟨k, hfind, hk⟩ | ⟨hjoin, hfull⟩
  · omega
  · exact (hap i hu).not_has hin hi
  · -- the area that contains the range has its protection
    have hjoins := List.find?_some hfind
    simp only [VmArea.joins, Bool.and_eq_true, beq_iff_eq] at hjoins
    obtain ⟨⟨⟨huk, hpk⟩, -⟩, -⟩ := hjoins
    have hka : (vs k).span.Has a := ⟨hk.1.trans hin.1, hin.2.trans_le hk.2⟩
    rw [hwf.eq_of_has hu huk hi hka] at hne
    exact hne hpk
  · have hnone : (List.finRange maxProcessVmas).find?
        (fun i => (vs i).joins start endAddr p flags) = none := by simp [hjoin]
    have hslot : (List.finRange maxProcessVmas).find? (fun i => !(vs i).used) = none := by
      simp [hfull]
    rw [vmaCreate, if_neg (by omega), hnone] at hc
    dsimp only at hc
    rw [hslot] at hc
    cases hc

/-- A mapping for writing, of pages that no area has or that the area of the same kind has. -/
lemma sysMmap_inv {vm : ProcVm} {addr len prot flags : ℕ} (h : RightsInv m vm.vmas)
    (hfit : MmapFits vm addr len prot flags) (hwrite : prot.testBit 1 = true)
    (hlow : u64 (mmapTarget vm addr flags + pageAlign len) ≤ 2 ^ 48)
    (hpages : len ≠ 0 → PagesFit m (mmapTarget vm addr flags) (mmapPages len)) :
    RightsInv (sysMmap m vm addr len prot flags).2.1 (sysMmap m vm addr len prot flags).2.2.vmas := by
  have hwf := sysMmap_wf m h.wf hfit
  have htab := sysMmap_tables h.tablesOk vm addr len prot flags hpages
  unfold sysMmap at hwf htab ⊢
  split_ifs at hwf htab ⊢ with hlen
  · exact h
  dsimp only at hwf htab ⊢
  cases hok : mmapAddr vm addr (pageAlign len) flags with
  | error e => exact h
  | ok r =>
    obtain ⟨virt, vm'⟩ := r
    obtain ⟨hvirt, hal, hvmas, hfix⟩ := mmapAddr_ok hok
    have hfits := hfit hfix
    rw [hok] at hwf htab
    dsimp only at hwf htab ⊢
    rw [hvmas] at hwf htab ⊢
    rw [← hvirt] at hlow hfits htab
    rcases hc : vmaCreate vm.vmas virt (u64 (virt + pageAlign len)) (vmaProtOf prot)
      (vmaFlagsOf flags) with ⟨r, vs'⟩
    have hvs' : vs' = (vmaCreate vm.vmas virt (u64 (virt + pageAlign len)) (vmaProtOf prot)
      (vmaFlagsOf flags)).2 := by rw [hc]
    rw [hc] at hwf htab
    have hlower : ∀ a, Covered vs' a → a < 2 ^ 48 := by
      intro a ha
      rw [hvs'] at ha
      rcases (vmaCreate_grown ..).covered ha with hcov | hin
      · exact h.lower a hcov
      · exact hin.2.trans_le hlow
    have hprot : ∀ a q, AreaProt vs' a q → q.testBit 1 = false → AreaProt vm.vmas a q := by
      intro a q hq h0
      rw [hvs'] at hq
      rcases areaProt_vmaCreate hq with hold | ⟨rfl, -⟩
      · exact hold
      · rw [vmaProtOf_testBit, hwrite] at h0
        cases h0
    cases r with
    | none =>
      refine ⟨hwf, hlower, h.tablesOk, fun a q hq hg => ?_⟩
      by_contra h0
      rw [Bool.not_eq_true] at h0
      exact absurd (h.allowed a q (hprot a q hq h0) hg) (by simp [h0])
    | some j =>
      refine ⟨hwf, hlower, htab.tablesOk, fun a q hq hg => ?_⟩
      by_contra h0
      rw [Bool.not_eq_true] at h0
      have hold := hprot a q hq h0
      by_cases hrun : OnRun virt (mmapPages len) (pageKey a)
      · -- the page would be in the range of the mapping
        obtain ⟨hlt, hout⟩ := vmaCreate_apart h.wf hfits hc hold (by
          rintro rfl
          rw [vmaProtOf_testBit, hwrite] at h0
          cases h0)
        obtain ⟨n, hn, hk⟩ := hrun
        have hend := dvd_u64_add hal (dvd_pageAlign len)
        have hpl : pageAlign len < 2 ^ 64 := by
          unfold pageAlign u64
          omega
        have hbase : virt ≤ pageAt virt n ∧ pageAt virt n < u64 (virt + pageAlign len) := by
          unfold mmapPages pageSize at hn
          unfold pageAt u64 pageSize
          unfold u64 at hlt hlow
          omega
        exact hout (same_page hal hend (h.lower a hold.covered) (hbase.2.trans_le hlow) hk hbase)
      · exact absurd (h.allowed a q hold (hg.of_walk_eq (htab.walk a hrun))) (by simp [h0])

/-! ## Runs -/

/-- What one process does between two switches: memory calls and page faults. -/
inductive RightsEvent where
  | call (c : VmaCall)
  | fault (faultAddr errorCode : ℕ)

/-- The memory and the areas after an event.  A fault that is not resolved changes nothing. -/
def rightsStep (s : Mem × ProcVm) : RightsEvent → Mem × ProcVm
  | .call c => vmaCall s c
  | .fault faultAddr errorCode =>
    ((vmmHandlePageFault s.1 s.2.vmas true faultAddr errorCode).2, s.2)

/-- The condition on an event.  A mapping is for writing, apart from the areas there are and below
`2 ^ 48`; `SYS_MPROTECT` does not run from the tail of an area over other areas or foreign pages,
and takes write rights from 4 KB pages only; every event has the frames it needs and frees no
table. -/
def RightsSafe (s : Mem × ProcVm) : RightsEvent → Prop
  | .call (.mmap addr len prot flags) => MmapFits s.2 addr len prot flags ∧
    prot.testBit 1 = true ∧ u64 (mmapTarget s.2 addr flags + pageAlign len) ≤ 2 ^ 48 ∧
    (len ≠ 0 → PagesFit s.1 (mmapTarget s.2 addr flags) (mmapPages len))
  | .call (.munmap addr len) =>
    NoTable (tables s.1) (CoveredIn s.2.vmas addr (u64 (addr + pageAlign len))) s.1
  | .call (.mprotect addr len prot) => TailApart s.2.vmas addr (u64 (addr + pageAlign len)) ∧
    ProtectFits s.1 s.2.vmas addr (u64 (addr + pageAlign len)) (prot % 0x100000000)
  | .fault faultAddr errorCode => faultAllowed s.2.vmas true faultAddr errorCode = true →
    0 < freeFrames s.1 →
      (missing (tables s.1) (tablesOf (frameOf faultAddr))).card + 1 ≤ freeFrames s.1

lemma rightsStep_inv (s : Mem × ProcVm) (e : RightsEvent) (h : RightsInv s.1 s.2.vmas)
    (hsafe : RightsSafe s e) : RightsInv (rightsStep s e).1 (rightsStep s e).2.vmas := by
  cases e with
  | call c =>
    cases c with
    | mmap addr len prot flags => exact sysMmap_inv h hsafe.1 hsafe.2.1 hsafe.2.2.1 hsafe.2.2.2
    | munmap addr len => exact sysMunmap_inv h hsafe
    | mprotect addr len prot => exact sysMprotect_inv h hsafe.1 hsafe.2
  | fault faultAddr errorCode => exact vmmHandlePageFault_inv h true faultAddr errorCode hsafe

/-- A program starts with areas for writing only. -/
lemma areaProt_programVm {pid : ℤ} {segments : List ElfSegment}
    (h : AreaProt (programVm pid segments).vmas a q) : q.testBit 1 = true := by
  rcases areaProt_vmaCreate h with hseg | ⟨rfl, -⟩
  swap
  · decide
  unfold segmentVmas at hseg
  refine List.foldlRecOn (motive := fun vs : VmaTable => AreaProt vs a q → q.testBit 1 = true) _ _
    ?_ (fun vs ih s _ hs => ?_) hseg
  · rintro ⟨i, hu, -⟩
    cases hu
  · rcases areaProt_vmaCreate hs with hold | ⟨rfl, -⟩
    · exact ih hold
    · decide

lemma programVm_inv (hok : TablesOk m) {pid : ℤ} {segments : List ElfSegment}
    (hwf : VmasWf (programVm pid segments).vmas)
    (hlow : ∀ a, Covered (programVm pid segments).vmas a → a < 2 ^ 48) :
    RightsInv m (programVm pid segments).vmas :=
  ⟨hwf, hlow, hok, fun _ _ hq _ => areaProt_programVm hq⟩

/-- **No page is writable that its area protects**, in every run of memory calls and page faults
of one process from the start of a program whose areas are disjoint and below `2 ^ 48`, as long
as it maps memory for writing only and every event meets the other conditions. -/
theorem writes_allowed_of_run (m : Mem) (pid : ℤ) (segments : List ElfSegment)
    (es : List RightsEvent) (hok : TablesOk m) (hwf : VmasWf (programVm pid segments).vmas)
    (hlow : ∀ a, Covered (programVm pid segments).vmas a → a < 2 ^ 48)
    (h : Runs.StepsMeet rightsStep RightsSafe (m, programVm pid segments) es) :
    WritesAllowed (Runs.runFrom rightsStep (m, programVm pid segments) es).1
      (Runs.runFrom rightsStep (m, programVm pid segments) es).2.vmas :=
  (Runs.invariant_runFrom (I := fun s : Mem × ProcVm => RightsInv s.1 s.2.vmas) rightsStep_inv
    (programVm_inv hok hwf hlow) h).writesAllowed

/-! ## One page -/

/-- A mapping without a hint whose area can be made populates the pages from
`mmap_curr_base` on. -/
lemma sysMmap_mem (m : Mem) {vm : ProcVm} {len prot flags : ℕ} (hlen : len ≠ 0)
    (hfix : flags.testBit 4 = false)
    (hc : (vmaCreate vm.vmas (pageAlign vm.mmapCurrBase)
      (u64 (pageAlign vm.mmapCurrBase + pageAlign len)) (vmaProtOf prot)
      (vmaFlagsOf flags)).1.isSome = true) :
    (sysMmap m vm 0 len prot flags).2.1 =
      mmapPopulate m (pageAlign vm.mmapCurrBase) (mmapPages len) := by
  have haddr : mmapAddr vm 0 (pageAlign len) flags = .ok (vmmFindFreeArea vm (pageAlign len)) := by
    unfold mmapAddr
    rw [if_neg (by simp [hfix]), if_neg (by simp)]
  unfold sysMmap
  rw [if_neg hlen]
  dsimp only
  rw [haddr]
  dsimp only [vmmFindFreeArea]
  rcases hr : vmaCreate vm.vmas (pageAlign vm.mmapCurrBase)
    (u64 (pageAlign vm.mmapCurrBase + pageAlign len)) (vmaProtOf prot) (vmaFlagsOf flags) with
    ⟨r, vs'⟩
  rw [hr] at hc
  cases r with
  | none => cases hc
  | some j => rfl

/-- The page of a one-page mapping is a 4 KB page. -/
lemma smallPage_mmapPopulate_one (h : TablesOk m) (virt : ℕ) (hfree : 4 ≤ freeFrames m)
    (hk : pageKey a = pageKey (pageAt virt 0)) : smallPage (mmapPopulate m virt 1) a ≠ none := by
  obtain ⟨r, m1, ha⟩ := allocPage_isSome (m := m) (by omega)
  have h1 := alloc_remaps h (by decide) (show allocPages m 1 = _ from ha)
  obtain ⟨T2, hg, hw⟩ := mapUserPages_spec h1.grows.shape virt r 1 (by
    have hc := (missing_card_le (tables m) (userTables virt 1)).trans (card_userTables_le virt 1)
    have hcount := freeFrames_allocPages (by decide) (show allocPages m 1 = _ from ha)
    omega)
  have hm : mmapPopulate m virt 1 = mapUserPages m1 virt r 1 := by
    unfold mmapPopulate
    rw [show allocPages m 1 = _ from ha]
  obtain ⟨hp, -⟩ := pageKey_eq_iff.mp hk
  have hfilled : T2 (path3 a) ≠ none := by
    rw [hp]
    exact hg.filled (by simp [userTables, tablesOf])
  rw [hm, hg.shape.smallPage_eq_walk hfilled, hw]
  intro hnone
  exact userMap_ne_none.mpr ⟨0, Nat.one_pos, hk⟩ (Option.or_eq_none_iff.mp hnone).1

/-- A page mapped for reading and writing, then made read-only. -/
def mapThenProtect : List RightsEvent :=
  [.call (.mmap 0 0x1000 3 0x22), .call (.mprotect 0x700100000000 0x1000 1)]

lemma mapOne_mem (m : Mem) (prot : ℕ)
    (hc : (vmaCreate (programVm 1 []).vmas 0x700100000000 0x700100001000 (vmaProtOf prot)
      (vmaFlagsOf 0x22)).1.isSome = true) :
    (sysMmap m (programVm 1 []) 0 0x1000 prot 0x22).2.1 = mmapPopulate m 0x700100000000 1 := by
  have hbase : pageAlign (programVm 1 []).mmapCurrBase = 0x700100000000 := by decide +kernel
  have hfix : Nat.testBit 0x22 4 = false := rfl
  rw [sysMmap_mem m (by decide) hfix (by rw [hbase]; exact hc), hbase]
  rfl

/-- The memory of the machine just booted. -/
def bootMem : Mem := mmInit (fun _ => 0) fun _ => false

lemma bootMem_ok : TablesOk bootMem ∧ 4 ≤ freeFrames bootMem := by
  obtain ⟨hok, hfree, -⟩ := mmInit_spec (fun _ => 0) fun _ => false
  unfold maxPages at hfree
  exact ⟨hok, by unfold bootMem; omega⟩

lemma pagesFit_one (hfree : 4 ≤ freeFrames m) (virt : ℕ) : PagesFit m virt 1 := by
  refine ⟨by decide, fun _ => ?_⟩
  have := (missing_card_le (tables m) (userTables virt 1)).trans (card_userTables_le virt 1)
  omega

lemma rightsStep_mmap (m : Mem) (vm : ProcVm) (addr len prot flags : ℕ) :
    rightsStep (m, vm) (.call (.mmap addr len prot flags)) =
      (sysMmap m vm addr len prot flags).2 := rfl

lemma mapThenProtect_safe :
    Runs.StepsMeet rightsStep RightsSafe (bootMem, programVm 1 []) mapThenProtect := by
  obtain ⟨hok, hfree⟩ := bootMem_ok
  have hpages : mmapPages 0x1000 = 1 := by decide
  have hfit : CallFits (bootMem, programVm 1 []) (.mmap 0 0x1000 3 0x22) := by decide +kernel
  have hnotail : ∀ i, ¬ Tail (sysMmap bootMem (programVm 1 []) 0 0x1000 3 0x22).2.2.vmas
      0x700100000000 (u64 (0x700100000000 + pageAlign 0x1000)) i := by
    decide +kernel
  refine ⟨⟨hfit, rfl, by decide +kernel, fun _ => ?_⟩, ⟨by decide +kernel, ?_⟩, trivial⟩
  · dsimp only
    rw [hpages]
    exact pagesFit_one hfree _
  · rw [rightsStep_mmap]
    refine ⟨fun i ht => absurd ht (hnotail i), fun _ a h1 h2 _ => ?_,
      fun _ i ht => absurd ht (hnotail i)⟩
    rw [mapOne_mem bootMem 3 (by decide +kernel)]
    refine smallPage_mmapPopulate_one hok _ hfree ?_
    rw [show u64 (0x700100000000 + pageAlign 0x1000) = 0x700100001000 by decide +kernel] at h2
    unfold pageKey pageAt u64 pageSize
    omega

theorem writes_allowed_of_run_mapThenProtect :
    WritesAllowed (Runs.runFrom rightsStep (bootMem, programVm 1 []) mapThenProtect).1
      (Runs.runFrom rightsStep (bootMem, programVm 1 []) mapThenProtect).2.vmas := by
  refine writes_allowed_of_run bootMem 1 [] mapThenProtect bootMem_ok.1 ?_ ?_ mapThenProtect_safe
  · refine vmaCreate_wf vmasWf_empty (by decide) (by decide) (Or.inr (Or.inl ?_))
    intro i hu
    cases hu
  · intro a ha
    rcases (vmaCreate_grown ..).covered ha with ⟨i, hu, -⟩ | ⟨-, hlt⟩
    · cases hu
    · exact hlt.trans (by decide)

/-- **A mapping for reading only is writable.** -/
theorem mapped_readonly_writable :
    let s := rightsStep (bootMem, programVm 1 []) (.call (.mmap 0 0x1000 1 0x22))
    (s.2.vmas 1).used = true ∧ (s.2.vmas 1).span.Has 0x700100000000 ∧ (s.2.vmas 1).prot = 1 ∧
      ¬ WritesAllowed s.1 s.2.vmas := by
  intro s
  have hu : (s.2.vmas 1).used = true := by decide +kernel
  have hin : (s.2.vmas 1).span.Has 0x700100000000 := by
    constructor <;> decide +kernel
  have hprot : (s.2.vmas 1).prot = 1 := by decide +kernel
  refine ⟨hu, hin, hprot, fun h => ?_⟩
  obtain ⟨hok, hfree⟩ := bootMem_ok
  obtain ⟨i, -, -, hw⟩ := walk_mmapPopulate_one hok 0x700100000000 hfree
  have hs : s.1 = mmapPopulate bootMem 0x700100000000 1 := by
    rw [← mapOne_mem bootMem 1 (by decide +kernel), ← rightsStep_mmap]
  have := h 1 hu _ hin ⟨frameAddr i, true, true⟩ (Or.inr (by rw [hs]; exact hw)) rfl
  rw [hprot] at this
  exact absurd this (by decide)

end Bangos.Proc
