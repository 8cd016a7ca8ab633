import Bangos.Mm.AreaPages
import Bangos.Mm.BootTables

/-!
# The areas of a process as a map from addresses

What the rest of the kernel learns from the table of areas is what `vma_find` finds: the protection
and flags at an address.  As a map from addresses, creating an area assigns a range and removing a
range clears it, however the table merges, trims and splits its entries on the way.  Removing a
range also takes its pages out of the page tables, and no others.
-/

namespace Bangos.Mm

open PathTree

variable {m m' : Mem} {T : List ℕ → Option ℕ} {vs : VmaTable} {start endAddr virt a n : ℕ}
  {i j : Fin maxProcessVmas} {v : VmArea}

/-- A partial map from addresses to protection and flags. -/
abbrev AreaMap := ℕ → Option (ℕ × ℕ)

/-- The map with the value `x` on `[start, endAddr)`. -/
def AreaMap.assign (A : AreaMap) (start endAddr : ℕ) (x : Option (ℕ × ℕ)) : AreaMap :=
  fun a => if start ≤ a ∧ a < endAddr then x else A a

/-- Protection and flags of the area that `vma_find` returns. -/
def areaMap (vs : VmaTable) : AreaMap :=
  fun a => (vmaFind vs a).map fun i => ((vs i).prot, (vs i).flags)

/-! ## Reading the map -/

lemma vmaFind_eq_some (h : vmaFind vs a = some i) : (vs i).used = true ∧ (vs i).span.Has a := by
  have := List.find?_some h
  simpa [VmArea.span, Span.Has] using this

lemma VmasDisjoint.areaMap_of_has (h : VmasDisjoint vs) (hu : (vs i).used = true)
    (ha : (vs i).span.Has a) : areaMap vs a = some ((vs i).prot, (vs i).flags) := by
  have hsome : (vmaFind vs a).isSome := by
    rw [vmaFind, List.find?_isSome]
    exact ⟨i, List.mem_finRange i, by simpa [VmArea.span, Span.Has] using And.intro hu ha⟩
  obtain ⟨j, hj⟩ := Option.isSome_iff_exists.mp hsome
  obtain ⟨huj, haj⟩ := vmaFind_eq_some hj
  rw [areaMap, hj, h.eq_of_has huj hu haj ha]
  rfl

lemma areaMap_eq_none : areaMap vs a = none ↔ ¬ Covered vs a := by
  rw [areaMap, Option.map_eq_none_iff, vmaFind, List.find?_eq_none]
  constructor
  · rintro h ⟨i, hu, ha⟩
    exact h i (List.mem_finRange i) (by simpa [VmArea.span, Span.Has] using And.intro hu ha)
  · intro h i _ hi
    exact h ⟨i, by simpa [VmArea.span, Span.Has] using hi⟩

lemma areaMap_update_off (hold : (vs i).used = true → ¬ (vs i).span.Has a)
    (hnew : v.used = true → ¬ v.span.Has a) : areaMap (Function.update vs i v) a = areaMap vs a := by
  have hfind : vmaFind (Function.update vs i v) a = vmaFind vs a := by
    unfold vmaFind
    congr 1
    funext j
    by_cases hj : j = i
    · subst hj
      rw [Function.update_self, Bool.eq_iff_iff]
      simp only [Bool.and_eq_true, decide_eq_true_eq]
      exact iff_of_false (fun h => hnew h.1 h.2) fun h => hold h.1 h.2
    · rw [Function.update_of_ne hj]
  unfold areaMap
  rw [hfind]
  cases hs : vmaFind vs a with
  | none => rfl
  | some j =>
    obtain ⟨hu, ha⟩ := vmaFind_eq_some hs
    have hj : j ≠ i := by
      rintro rfl
      exact hold hu ha
    rw [Option.map_some, Option.map_some, Function.update_of_ne hj]

lemma VmasWf.areaMap_update_self (h : VmasWf (Function.update vs i v)) (hv : v.used = true)
    (ha : v.span.Has a) : areaMap (Function.update vs i v) a = some (v.prot, v.flags) := by
  have hi : Function.update vs i v i = v := Function.update_self ..
  have := h.disjoint.areaMap_of_has (i := i) (a := a) (by rwa [hi]) (by rwa [hi])
  rwa [hi] at this

lemma VmasWf.areaMap_shrink (h : VmasWf vs) (hu : (vs i).used = true)
    (hwf : VmasWf (Function.update vs i v)) (hin : v.used = true → v.span.Has a → (vs i).span.Has a)
    (hsame : (v.prot, v.flags) = ((vs i).prot, (vs i).flags)) :
    areaMap (Function.update vs i v) a =
      if (vs i).span.Has a ∧ ¬(v.used = true ∧ v.span.Has a) then none else areaMap vs a := by
  by_cases hold : (vs i).span.Has a
  · by_cases hnew : v.used = true ∧ v.span.Has a
    · rw [if_neg (fun hc => hc.2 hnew), h.disjoint.areaMap_of_has hu hold, ← hsame,
        hwf.areaMap_update_self hnew.1 hnew.2]
    · rw [if_pos ⟨hold, hnew⟩, areaMap_eq_none]
      exact h.disjoint.not_covered_shrink hu hold fun hv ha => hnew ⟨hv, ha⟩
  · rw [if_neg (fun hc => hold hc.1)]
    exact areaMap_update_off (fun _ => hold) fun hv ha => hold (hin hv ha)

/-! ## Creating an area -/

/-- What `vma_create` does with a range that no area meets, when a slot is free. -/
lemma vmaCreate_cases (h : VmasWf vs) (prot flags : ℕ) (hlt : start < endAddr)
    (hap : ∀ j, (vs j).used = true → Span.Apart ⟨start, endAddr⟩ (vs j).span)
    (hfree : ∃ j, (vs j).used = false) :
    ∃ i v, vmaCreate vs start endAddr prot flags = (some i, Function.update vs i v) ∧
      v.used = true ∧ (v.prot, v.flags) = (prot, flags) ∧
      ((vs i).used = true → ((vs i).prot, (vs i).flags) = (prot, flags)) ∧
      ∀ x, v.span.Has x ↔
        ((vs i).used = true ∧ (vs i).span.Has x) ∨ start ≤ x ∧ x < endAddr := by
  unfold vmaCreate
  rw [if_neg (by omega)]
  cases hjoin : (List.finRange maxProcessVmas).find?
      fun i => (vs i).joins start endAddr prot flags with
  | some i =>
    have hjoins := List.find?_some hjoin
    simp only [VmArea.joins, Bool.and_eq_true, Bool.or_eq_true, decide_eq_true_eq,
      beq_iff_eq] at hjoins
    obtain ⟨⟨⟨hu, hprot⟩, hflags⟩, hcase⟩ := hjoins
    have hne := h.nonempty i hu
    have hapart := hap i hu
    simp only [Span.Apart, VmArea.span] at hapart
    refine ⟨i, _, rfl, ?_, ?_, fun _ => by rw [hprot, hflags], ?_⟩
    · unfold VmArea.join
      split_ifs <;> exact hu
    · unfold VmArea.join
      split_ifs <;> simp [hprot, hflags]
    · intro x
      unfold VmArea.join
      -- the range is not inside the area, which it does not meet
      rw [if_neg (by omega)]
      split_ifs with hend <;> simp only [VmArea.span, Span.Has, hu, true_and] <;> omega
  | none =>
    dsimp only
    cases hslot : (List.finRange maxProcessVmas).find? fun i => !(vs i).used with
    | none =>
      obtain ⟨j, hj⟩ := hfree
      rw [List.find?_eq_none] at hslot
      exact absurd (hslot j (List.mem_finRange j)) (by simp [hj])
    | some i =>
      have hu : (vs i).used = false := by simpa using List.find?_some hslot
      exact ⟨i, _, rfl, rfl, rfl, fun hc => absurd hc (by simp [hu]),
        fun x => by simp [VmArea.span, Span.Has, hu]⟩

/-- **`vma_create` assigns its range** and leaves the rest of the map alone. -/
theorem areaMap_vmaCreate (h : VmasWf vs) (prot flags : ℕ) (hlt : start < endAddr)
    (hs : 4096 ∣ start) (he : 4096 ∣ endAddr)
    (hap : ∀ j, (vs j).used = true → Span.Apart ⟨start, endAddr⟩ (vs j).span)
    (hfree : ∃ j, (vs j).used = false) :
    areaMap (vmaCreate vs start endAddr prot flags).2 =
      (areaMap vs).assign start endAddr (some (prot, flags)) := by
  have hwf := (vmaCreate_grown vs start endAddr prot flags).wf h hlt hs he hap
  obtain ⟨i, v, hcreate, hv, hval, hold, hspan⟩ :=
    vmaCreate_cases h prot flags hlt hap hfree
  rw [hcreate] at hwf ⊢
  have hin : ∀ a, v.span.Has a → areaMap (Function.update vs i v) a = some (prot, flags) :=
    fun a ha => (hwf.areaMap_update_self hv ha).trans (congrArg some hval)
  funext a
  unfold AreaMap.assign
  split_ifs with ha
  · exact hin a ((hspan a).mpr (Or.inr ha))
  · by_cases hia : (vs i).used = true ∧ (vs i).span.Has a
    · rw [hin a ((hspan a).mpr (Or.inl hia)), h.disjoint.areaMap_of_has hia.1 hia.2, hold hia.1]
    · refine areaMap_update_off (fun hu hx => hia ⟨hu, hx⟩) fun _ hx => ?_
      rcases (hspan a).mp hx with hx | hx
      · exact hia hx
      · exact ha hx

/-! ## Cutting a range out of one area -/

lemma VmArea.meets_iff : v.meets start endAddr = true ↔
    v.used = true ∧ start < v.endAddr ∧ v.start < endAddr := by
  simp [VmArea.meets]

/-- A turn of `vma_remove` clears the part of the range that lies in its area. -/
lemma areaMap_vmaCut (h : VmasWf vs) (hr : PageRange start endAddr)
    (hmeets : (vs i).meets start endAddr = true) (hfree : ∃ j, (vs j).used = false) :
    areaMap (vmaCut vs start endAddr i) a =
      if (start ≤ a ∧ a < endAddr) ∧ (vs i).span.Has a then none else areaMap vs a := by
  have hwf := vmaCut_wf h hr hmeets
  obtain ⟨hu, hlo, hhi⟩ := VmArea.meets_iff.mp hmeets
  have hal := h.aligned i hu
  have hlt := hr.lt
  unfold vmaCut at hwf ⊢
  dsimp only at hwf ⊢
  by_cases h₁ : start ≤ (vs i).start ∧ (vs i).endAddr ≤ endAddr
  · -- the whole area
    rw [if_pos h₁] at hwf ⊢
    rw [h.areaMap_shrink hu hwf (fun _ ha => ha) rfl]
    refine if_congr ?_ rfl rfl
    simp only [VmArea.span, Span.Has, Bool.false_eq_true, false_and, not_false_iff, and_true]
    omega
  rw [if_neg h₁] at hwf ⊢
  by_cases h₂ : start ≤ (vs i).start ∧ endAddr < (vs i).endAddr
  · -- its start
    rw [if_pos h₂] at hwf ⊢
    rw [h.areaMap_shrink hu hwf (fun _ ha => ⟨hhi.le.trans ha.1, ha.2⟩) rfl]
    refine if_congr ?_ rfl rfl
    simp only [VmArea.span, Span.Has, hu, true_and]
    omega
  rw [if_neg h₂] at hwf ⊢
  by_cases h₃ : (vs i).start < start ∧ (vs i).endAddr ≤ endAddr
  · -- its end
    rw [if_pos h₃] at hwf ⊢
    rw [h.areaMap_shrink hu hwf (fun _ ha => ⟨ha.1, ha.2.trans hlo⟩) rfl]
    refine if_congr ?_ rfl rfl
    simp only [VmArea.span, Span.Has, hu, true_and]
    omega
  · -- a range inside: the area keeps what is before it, a new one gets what is behind
    rw [if_neg h₃]
    have hst : (vs i).start < start := by omega
    have hcut := h.shrink (v := { vs i with endAddr := start }) hu hst
      ⟨hal.1, hr.dvd_start⟩ le_rfl hlo.le
    have hbehind : ∀ x, endAddr ≤ x → x < (vs i).endAddr →
        ¬ Covered (Function.update vs i { vs i with endAddr := start }) x := fun x h1 h2 =>
      h.disjoint.not_covered_shrink hu ⟨hhi.le.trans h1, h2⟩
        fun _ hx => absurd (hx.2.trans_le (hlt.le.trans h1)) (lt_irrefl _)
    have hslot : ∃ j, (Function.update vs i { vs i with endAddr := start } j).used = false := by
      obtain ⟨j, hj⟩ := hfree
      have hji : j ≠ i := by
        rintro rfl
        exact absurd (hu.symm.trans hj) (by simp)
      exact ⟨j, by rwa [Function.update_of_ne hji]⟩
    rw [areaMap_vmaCreate hcut _ _ (by omega) hr.dvd_end hal.2
      (fun j hj => hcut.disjoint.apart_of_not_covered (by omega) hbehind hj) hslot]
    unfold AreaMap.assign
    rw [h.areaMap_shrink hu hcut (fun _ ha => ⟨ha.1, ha.2.trans hlo⟩) rfl]
    simp only [VmArea.span, Span.Has, hu, true_and]
    by_cases hb : endAddr ≤ a ∧ a < (vs i).endAddr
    · rw [if_pos hb]
      refine Eq.trans ?_ (if_neg (by omega)).symm
      exact (h.disjoint.areaMap_of_has hu ⟨show (vs i).start ≤ a by omega, hb.2⟩).symm
    · rw [if_neg hb]
      exact if_congr (by omega) rfl rfl

lemma Grown.meets_of {vs' : VmaTable} {e : ℕ} (hg : Grown vs endAddr e vs') (hlt : start < endAddr)
    (hj : (vs' j).meets start endAddr = true) : (vs j).meets start endAddr = true := by
  cases hg with
  | same => exact hj
  | right k hu he =>
    by_cases hjk : j = k
    · subst hjk
      rw [Function.update_self, VmArea.meets_iff] at hj
      exact VmArea.meets_iff.mpr ⟨hu, he ▸ hlt, hj.2.2⟩
    · rwa [Function.update_of_ne hjk] at hj
  | left k _ _ | fresh k _ _ _ =>
    by_cases hjk : j = k
    · subst hjk
      rw [Function.update_self, VmArea.meets_iff] at hj
      exact absurd hj.2.2 (lt_irrefl _)
    · rwa [Function.update_of_ne hjk] at hj

lemma vmaCut_meets (hr : PageRange start endAddr)
    (hj : (vmaCut vs start endAddr i j).meets start endAddr = true) :
    (vs j).meets start endAddr = true ∧ j ≠ i := by
  have hlt := hr.lt
  -- the slot of the area is the only one that a shrinking changes
  have hupd : ∀ w : VmArea, w.meets start endAddr = false →
      (Function.update vs i w j).meets start endAddr = true →
      (vs j).meets start endAddr = true ∧ j ≠ i := by
    intro w hw hj
    by_cases hji : j = i
    · rw [hji, Function.update_self, hw] at hj
      cases hj
    · rw [Function.update_of_ne hji] at hj
      exact ⟨hj, hji⟩
  have hshort : ∀ w : VmArea, (w.used = true → w.endAddr ≤ start ∨ endAddr ≤ w.start) →
      w.meets start endAddr = false := by
    intro w hw
    rw [Bool.eq_false_iff]
    intro hm
    obtain ⟨hwu, h1, h2⟩ := VmArea.meets_iff.mp hm
    have := hw hwu
    omega
  unfold vmaCut at hj
  split_ifs at hj with h₁ h₂ h₃
  · exact hupd _ (hshort _ (fun hf => by cases hf)) hj
  · exact hupd _ (hshort _ (fun _ => Or.inr le_rfl)) hj
  · exact hupd _ (hshort _ (fun _ => Or.inl le_rfl)) hj
  · exact hupd _ (hshort _ fun _ => Or.inl le_rfl) ((vmaCreate_grown ..).meets_of hlt hj)

/-! ## The pages of a range -/

/-- The entries of the tables `T` but those of the pages with keys in `P` are the same. -/
def SameEntries (T : List ℕ → Option ℕ) (P : ℕ → Prop) (m m' : Mem) : Prop :=
  ∀ v t, T (path3 v) = some t → ¬ P (pageKey v) → entry m' t (ptIdx v) = entry m t (ptIdx v)

/-- A write to an entry of a page table keeps the tables and all other entries. -/
lemma Linked.setLeaf {t : ℕ} (h : Linked m T) (h3 : T (path3 virt) = some t) (e : ℕ) :
    Linked (setEntry m t (ptIdx virt) e) T ∧
      SameEntries T (· = pageKey virt) m (setEntry m t (ptIdx virt) e) := by
  have hother : ∀ q s k, T q = some s → k < 512 → (q = path3 virt → k ≠ ptIdx virt) →
      entry (setEntry m t (ptIdx virt) e) s k = entry m s k := fun q s k hq hk hne =>
    entry_setEntry_of_ne (h.aligned h3) (h.aligned hq) (idx_lt virt).2.2.2 hk
      (fun hst => hne (h.tree.inj hq (hst ▸ h3))) e
  have hupper : ∀ {q : List ℕ}, q.length < 3 → q ≠ path3 virt := by
    rintro q hq rfl
    simp [path3, path2, path1] at hq
  constructor
  · refine ⟨h.root, h.tree, h.aligned, h.depth, h.index, ?_, ?_⟩
    · intro k q s s' hq hc
      have hlen := h.depth hc
      rw [List.length_cons] at hlen
      rw [hother q s k hq (h.index hc) fun he => absurd he (hupper (by omega))]
      exact h.child hq hc
    · intro k q s hq hl hk hc
      rw [hother q s k hq hk fun he => absurd he (hupper hl)]
      exact h.leaf hq hl hk hc
  · intro v s hs hv
    exact hother _ s _ hs (idx_lt v).2.2.2 fun hp hidx => hv (pageKey_eq_iff.mpr ⟨hp, hidx⟩)

lemma Linked.smallPage_eq (h : Linked m T) (v : ℕ) :
    smallPage m v = (T (path3 v)).bind fun t => leafPte (entry m t (ptIdx v)) := by
  rw [smallPage, h.getPte_eq]

lemma Linked.freePage (h : Linked m T) (x : ℕ) : Linked (freePage m x) T := by
  have hent : ∀ t k, entry (Mm.freePage m x) t k = entry m t k := fun t k => by
    rw [entry, entry, freePage_phys]
  refine ⟨by rw [freePage_kernelPml4]; exact h.root, h.tree, h.aligned, h.depth, h.index, ?_, ?_⟩
  · intro k q s s' hq hc
    rw [hent]
    exact h.child hq hc
  · intro k q s hq hl hk hc
    rw [hent]
    exact h.leaf hq hl hk hc

/-- **`unmap_page`** clears the entry of its page and no other. -/
lemma Linked.unmapPage (h : Linked m T) (virt : ℕ) :
    Linked (unmapPage m virt) T ∧ SameEntries T (· = pageKey virt) m (unmapPage m virt) ∧
      smallPage (unmapPage m virt) virt = none := by
  rcases unmapPage_cases m virt with ⟨hx, he⟩ | ⟨t, x, ht, hx, he⟩
  · rw [he]
    exact ⟨h, fun _ _ _ _ => rfl, hx⟩
  · rw [h.getPte_eq] at ht
    obtain ⟨hl, hsame⟩ := (h.freePage x.frame).setLeaf ht 0
    rw [he]
    refine ⟨hl, fun v s hs hv => ?_, ?_⟩
    · rw [hsame v s hs hv, entry, entry, freePage_phys]
    · rw [hl.smallPage_eq, ht, Option.bind_some, entry_setEntry_self]
      simp [leafPte, isPresent_zero]

lemma SameEntries.smallPage_eq {P : ℕ → Prop} (h : Linked m T) (h' : Linked m' T)
    (hs : SameEntries T P m m') {v : ℕ} (hv : ¬ P (pageKey v)) : smallPage m' v = smallPage m v := by
  rw [h.smallPage_eq, h'.smallPage_eq]
  cases ht : T (path3 v) with
  | none => rfl
  | some t => rw [Option.bind_some, Option.bind_some, hs v t ht hv]

lemma smallPage_congr_key {v : ℕ} (h : Linked m T) (hk : pageKey v = pageKey virt) :
    smallPage m v = smallPage m virt := by
  obtain ⟨hp, hidx⟩ := pageKey_eq_iff.mp hk
  rw [h.smallPage_eq, h.smallPage_eq, hp, hidx]

/-- **`unmap_user_pages`** clears the entries of its run of pages and no other. -/
lemma Linked.unmapUserPages (h : Linked m T) (virt n : ℕ) :
    Linked (unmapUserPages m virt n) T ∧ SameEntries T (OnRun virt n) m (unmapUserPages m virt n) ∧
      ∀ v, OnRun virt n (pageKey v) ∨ smallPage m v = none →
        smallPage (unmapUserPages m virt n) v = none := by
  induction n with
  | zero =>
    refine ⟨h, fun _ _ _ _ => rfl, fun v hv => hv.resolve_left ?_⟩
    rintro ⟨i, hi, -⟩
    omega
  | succ n ih =>
    obtain ⟨hl, hsame, hgone⟩ := ih
    obtain ⟨hl', hsame', hgone'⟩ := hl.unmapPage (pageAt virt n)
    refine ⟨hl', ?_, ?_⟩
    · intro v t ht hv
      refine (hsame' v t ht fun hk => hv ⟨n, by omega, hk⟩).trans (hsame v t ht fun hr => hv ?_)
      obtain ⟨i, hi, hk⟩ := hr
      exact ⟨i, by omega, hk⟩
    · intro v hv
      show smallPage (Mm.unmapPage (Mm.unmapUserPages m virt n) (pageAt virt n)) v = none
      by_cases hk : pageKey v = pageKey (pageAt virt n)
      · rw [smallPage_congr_key hl' hk, hgone']
      · rw [hsame'.smallPage_eq hl hl' hk]
        refine hgone v (hv.imp_left ?_)
        rintro ⟨i, hi, hki⟩
        refine ⟨i, ?_, hki⟩
        by_contra hni
        obtain rfl : i = n := by omega
        exact hk hki

/-! ## The loop of `vma_remove` -/

/-- A range of pages below `2 ^ 48`. -/
structure UserRange (start endAddr : ℕ) : Prop extends PageRange start endAddr where
  low : endAddr ≤ 2 ^ 48

/-- The pages of the addresses of a range, by their keys. -/
def InRange (start endAddr key : ℕ) : Prop := start / 4096 ≤ key ∧ key < endAddr / 4096

lemma pageKey_base (v : ℕ) : pageKey (pageKey v * 4096) = pageKey v ∧ pageKey v * 4096 < 2 ^ 48 := by
  unfold pageKey
  omega

lemma UserRange.inRange_iff (hr : UserRange start endAddr) (ha : a < 2 ^ 48) :
    InRange start endAddr (pageKey a) ↔ start ≤ a ∧ a < endAddr := by
  have h1 := hr.dvd_start
  have h2 := hr.dvd_end
  unfold InRange pageKey
  omega

lemma onRun_iff (h : VmasWf vs) (hr : UserRange start endAddr)
    (hmeets : (vs i).meets start endAddr = true) (ha : a < 2 ^ 48) :
    OnRun (max start (vs i).start)
        ((min endAddr (vs i).endAddr - max start (vs i).start) / pageSize) (pageKey a) ↔
      (start ≤ a ∧ a < endAddr) ∧ (vs i).span.Has a := by
  obtain ⟨hu, hlo, hhi⟩ := VmArea.meets_iff.mp hmeets
  obtain ⟨h1, h2⟩ := h.aligned i hu
  have h3 := hr.dvd_start
  have h4 := hr.dvd_end
  have h5 := hr.low
  have h6 := h.nonempty i hu
  simp only [VmArea.span, Span.Has]
  obtain ⟨lo, hlo'⟩ : ∃ lo, lo = max start (vs i).start := ⟨_, rfl⟩
  obtain ⟨hi, hhi'⟩ : ∃ hi, hi = min endAddr (vs i).endAddr := ⟨_, rfl⟩
  rw [← hlo', ← hhi']
  have hiff : ((start ≤ a ∧ a < endAddr) ∧ (vs i).start ≤ a ∧ a < (vs i).endAddr) ↔
      lo ≤ a ∧ a < hi := by omega
  have hlohi : 4096 ∣ lo ∧ 4096 ∣ hi ∧ hi ≤ 2 ^ 48 := by omega
  rw [hiff]
  unfold OnRun pageKey pageAt u64 pageSize
  constructor
  · rintro ⟨j, hj, hk⟩
    omega
  · rintro ⟨hla, hah⟩
    exact ⟨(a - lo) / 4096, by omega, by omega⟩

/-- The state of the loop of `vma_remove` with the slots of `done` behind it. -/
structure Removing (vs : VmaTable) (m : Mem) (T : List ℕ → Option ℕ) (start endAddr : ℕ)
    (done : List (Fin maxProcessVmas)) (r : Mem × VmaTable) : Prop where
  wf : VmasWf r.2
  outside : ∀ a, ¬(start ≤ a ∧ a < endAddr) → areaMap r.2 a = areaMap vs a
  done : ∀ j ∈ done, (r.2 j).meets start endAddr = false
  room : (∃ j, (r.2 j).used = false) ∨ ∀ j, (r.2 j).meets start endAddr = false
  linked : Linked r.1 T
  entries : SameEntries T (InRange start endAddr) m r.1
  unmapped : ∀ a, start ≤ a → a < endAddr → Covered vs a → Covered r.2 a ∨ smallPage r.1 a = none

/-- After a turn there is a free slot, or nothing meets the range any more: only a split takes
a slot, and only an area around the whole range is split. -/
lemma room_vmaCut (h : VmasWf vs) (hr : PageRange start endAddr)
    (hmeets : (vs i).meets start endAddr = true) (hfree : ∃ j, (vs j).used = false) :
    (∃ j, (vmaCut vs start endAddr i j).used = false) ∨
      ∀ j, (vmaCut vs start endAddr i j).meets start endAddr = false := by
  obtain ⟨hu, hlo, hhi⟩ := VmArea.meets_iff.mp hmeets
  obtain ⟨j, hj⟩ := hfree
  have hji : j ≠ i := by
    rintro rfl
    exact absurd (hu.symm.trans hj) (by simp)
  by_cases hsplit : (vs i).start < start ∧ endAddr < (vs i).endAddr
  · refine Or.inr fun k => ?_
    rw [Bool.eq_false_iff]
    intro hk
    obtain ⟨hold, hki⟩ := vmaCut_meets hr hk
    obtain ⟨huk, hlok, hhik⟩ := VmArea.meets_iff.mp hold
    have hne := h.nonempty k huk
    have hap := h.apart k i hki huk hu
    have hlt := hr.lt
    simp only [Span.Apart, VmArea.span] at hap
    omega
  · refine Or.inl ?_
    unfold vmaCut
    split_ifs with h₁ h₂ h₃
    · exact ⟨i, by rw [Function.update_self]⟩
    · exact ⟨j, by rwa [Function.update_of_ne hji]⟩
    · exact ⟨j, by rwa [Function.update_of_ne hji]⟩
    · omega

lemma Removing.step {done : List (Fin maxProcessVmas)} {r : Mem × VmaTable}
    (hr : UserRange start endAddr) (h : Removing vs m T start endAddr done r)
    (i : Fin maxProcessVmas) :
    Removing vs m T start endAddr (done ++ [i]) (vmaRemoveStep start endAddr r i) := by
  unfold vmaRemoveStep
  dsimp only
  by_cases hmeets : (r.2 i).meets start endAddr = true
  · rw [if_pos hmeets]
    have hfree := h.room.resolve_right fun hall => absurd (hmeets.symm.trans (hall i)) (by simp)
    obtain ⟨hl, hsame, hgone⟩ := h.linked.unmapUserPages (max start (r.2 i).start)
      ((min endAddr (r.2 i).endAddr - max start (r.2 i).start) / pageSize)
    refine ⟨vmaCut_wf h.wf hr.toPageRange hmeets, ?_, ?_,
      room_vmaCut h.wf hr.toPageRange hmeets hfree, hl, ?_, ?_⟩
    · intro a ha
      rw [areaMap_vmaCut h.wf hr.toPageRange hmeets hfree, if_neg fun hc => ha hc.1]
      exact h.outside a ha
    · intro j hj
      rw [Bool.eq_false_iff]
      intro hjm
      obtain ⟨hold, hji⟩ := vmaCut_meets hr.toPageRange hjm
      rcases List.mem_append.mp hj with hj | hj
      · exact absurd (hold.symm.trans (h.done j hj)) (by simp)
      · exact hji (List.mem_singleton.mp hj)
    · intro v t ht hv
      refine (hsame v t ht fun hon => hv ?_).trans (h.entries v t ht hv)
      obtain ⟨hkey, hlow⟩ := pageKey_base v
      rw [← hkey] at hon ⊢
      exact (hr.inRange_iff hlow).mpr ((onRun_iff h.wf hr hmeets hlow).mp hon).1
    · intro a h1 h2 hc
      have hlow : a < 2 ^ 48 := h2.trans_le hr.low
      by_cases hia : (r.2 i).span.Has a
      · exact Or.inr (hgone a (Or.inl ((onRun_iff h.wf hr hmeets hlow).mpr ⟨⟨h1, h2⟩, hia⟩)))
      · refine (h.unmapped a h1 h2 hc).imp (fun hcov => ?_) fun hn => hgone a (Or.inr hn)
        by_contra hno
        rw [← areaMap_eq_none, areaMap_vmaCut h.wf hr.toPageRange hmeets hfree,
          if_neg fun hc => hia hc.2, areaMap_eq_none] at hno
        exact hno hcov
  · rw [if_neg hmeets]
    refine ⟨h.wf, h.outside, fun j hj => ?_, h.room, h.linked, h.entries, h.unmapped⟩
    rcases List.mem_append.mp hj with hj | hj
    · exact h.done j hj
    · rw [List.mem_singleton.mp hj]
      exact Bool.eq_false_iff.mpr hmeets

lemma Removing.foldl (hr : UserRange start endAddr) (l : List (Fin maxProcessVmas)) :
    ∀ {done r}, Removing vs m T start endAddr done r →
      Removing vs m T start endAddr (done ++ l) (l.foldl (vmaRemoveStep start endAddr) r) := by
  induction l with
  | nil =>
    intro done r h
    rwa [List.append_nil]
  | cons i l ih =>
    intro done r h
    have := ih (h.step hr i)
    rwa [List.append_assoc] at this

/-- **`vma_remove` clears its range**: the map there, and the entries of the pages that were in an
area.  It leaves the rest of the map and the entries of all other pages alone. -/
theorem vmaRemove_clears (h : VmasWf vs) (hr : UserRange start endAddr)
    (hfree : ∃ j, (vs j).used = false) (hl : Linked m T) :
    areaMap (vmaRemove m vs start endAddr).2.2 = (areaMap vs).assign start endAddr none ∧
      Linked (vmaRemove m vs start endAddr).2.1 T ∧
      SameEntries T (InRange start endAddr) m (vmaRemove m vs start endAddr).2.1 ∧
      ∀ a, start ≤ a → a < endAddr → Covered vs a →
        smallPage (vmaRemove m vs start endAddr).2.1 a = none := by
  have hstart : Removing vs m T start endAddr [] (m, vs) :=
    ⟨h, fun _ _ => rfl, by simp, Or.inl hfree, hl, fun _ _ _ _ => rfl, fun _ _ _ hc => Or.inl hc⟩
  have hend := hstart.foldl hr (List.finRange maxProcessVmas)
  unfold vmaRemove
  rw [if_neg (not_le.mpr hr.lt)]
  obtain ⟨r, hrdef⟩ : ∃ r, r = (List.finRange maxProcessVmas).foldl
      (vmaRemoveStep start endAddr) (m, vs) := ⟨_, rfl⟩
  rw [← hrdef] at hend ⊢
  -- no area of the table that is left has an address of the range
  have hclear : ∀ a, start ≤ a → a < endAddr → ¬ Covered r.2 a := by
    rintro a h1 h2 ⟨j, hu, ha⟩
    have hmeets : (r.2 j).meets start endAddr = true :=
      VmArea.meets_iff.mpr ⟨hu, lt_of_le_of_lt h1 ha.2, lt_of_le_of_lt ha.1 h2⟩
    exact absurd (hmeets.symm.trans (hend.done j (by simp))) (by simp)
  refine ⟨?_, hend.linked, hend.entries, fun a h1 h2 hc => ?_⟩
  · funext a
    unfold AreaMap.assign
    split_ifs with ha
    · exact areaMap_eq_none.mpr (hclear a ha.1 ha.2)
    · exact hend.outside a ha
  · exact (hend.unmapped a h1 h2 hc).resolve_left (hclear a h1 h2)

/-! ## Runs of calls -/

/-- A call that changes the areas of a process. -/
inductive AreaCall where
  /-- `vma_create`. -/
  | create (start endAddr prot flags : ℕ)
  /-- `vma_remove`. -/
  | remove (start endAddr : ℕ)

/-- The state after a call. -/
def areaCall (s : Mem × VmaTable) : AreaCall → Mem × VmaTable
  | .create start endAddr prot flags => (s.1, (vmaCreate s.2 start endAddr prot flags).2)
  | .remove start endAddr => (vmaRemove s.1 s.2 start endAddr).2

/-- The calls considered: on page-aligned ranges below `2 ^ 48`, while a slot is free; a range to
be created meets no area in use. -/
def AreaCallOk (vs : VmaTable) : AreaCall → Prop
  | .create start endAddr _ _ =>
    (4096 ∣ start ∧ 4096 ∣ endAddr ∧ endAddr ≤ 2 ^ 48) ∧
      (∀ j, (vs j).used = true → Span.Apart ⟨start, endAddr⟩ (vs j).span) ∧
      ∃ j, (vs j).used = false
  | .remove start endAddr =>
    (start < endAddr ∧ 4096 ∣ start ∧ 4096 ∣ endAddr ∧ endAddr ≤ 2 ^ 48) ∧
      ∃ j, (vs j).used = false

instance (vs : VmaTable) : ∀ c, Decidable (AreaCallOk vs c)
  | .create _ _ _ _ => inferInstanceAs (Decidable (_ ∧ _))
  | .remove _ _ => inferInstanceAs (Decidable (_ ∧ _))

lemma areaCall_wf (s : Mem × VmaTable) (c : AreaCall) (h : VmasWf s.2) (hc : AreaCallOk s.2 c) :
    VmasWf (areaCall s c).2 := by
  cases c with
  | create start endAddr prot flags =>
    exact vmaCreate_wf h hc.1.1 hc.1.2.1 (Or.inr (Or.inl hc.2.1))
  | remove start endAddr => exact vmaRemove_wf h s.1 hc.1.2.1 hc.1.2.2.1

/-- **The table of areas refines a partial map from addresses.**  In every run of such calls from
`vmm_init_process` the areas in use are disjoint; an area that is created assigns its range, and a
range that is removed is cleared, in the map and in the page tables, whatever these hold when the
call is made. -/
theorem areas_refine_map (m : Mem) (pid : ℤ) (cs : List AreaCall)
    (h : Runs.StepsMeet areaCall (fun s c => AreaCallOk s.2 c) (m, (vmmInitProcess pid).vmas) cs) :
    let vs := (Runs.runFrom areaCall (m, (vmmInitProcess pid).vmas) cs).2
    VmasWf vs ∧
    (∀ start endAddr prot flags, AreaCallOk vs (.create start endAddr prot flags) →
      (vmaCreate vs start endAddr prot flags).1 ≠ none →
      areaMap (vmaCreate vs start endAddr prot flags).2 =
        (areaMap vs).assign start endAddr (some (prot, flags))) ∧
    ∀ start endAddr, AreaCallOk vs (.remove start endAddr) → ∀ m T, Linked m T →
      let r := vmaRemove m vs start endAddr
      areaMap r.2.2 = (areaMap vs).assign start endAddr none ∧
      (∀ a, start ≤ a → a < endAddr → areaMap vs a ≠ none →
        ∀ t, getPte r.2.1 a = some t → isPresent (entry r.2.1 t (ptIdx a)) = false) ∧
      ∀ a < 2 ^ 48, ¬(start ≤ a ∧ a < endAddr) → getPte r.2.1 a = getPte m a ∧
        ∀ t, getPte m a = some t → entry r.2.1 t (ptIdx a) = entry m t (ptIdx a) := by
  intro vs
  have hwf : VmasWf vs := Runs.invariant_runFrom (I := fun s : Mem × VmaTable => VmasWf s.2)
    areaCall_wf vmasWf_empty h
  refine ⟨hwf, ?_, ?_⟩
  · rintro start endAddr prot flags ⟨⟨hs, he, -⟩, hap, hfree⟩ hsome
    have hlt : start < endAddr := by
      by_contra hle
      rw [vmaCreate, if_pos (not_lt.mp hle)] at hsome
      exact hsome rfl
    exact areaMap_vmaCreate hwf prot flags hlt hs he hap hfree
  · rintro start endAddr ⟨⟨hlt, hs, he, hlow⟩, hfree⟩ m T hl
    have hr : UserRange start endAddr := ⟨⟨hlt, hs, he⟩, hlow⟩
    obtain ⟨hmap, hl', hsame, hgone⟩ := vmaRemove_clears hwf hr hfree hl
    refine ⟨hmap, ?_, ?_⟩
    · intro a h1 h2 ha t ht
      have hcov : Covered vs a := by
        by_contra hno
        exact ha (areaMap_eq_none.mpr hno)
      have hnone := hgone a h1 h2 hcov
      rw [smallPage, ht, Option.bind_some] at hnone
      by_contra hpres
      rw [Bool.not_eq_false] at hpres
      rw [leafPte, if_pos hpres] at hnone
      cases hnone
    · intro a ha hout
      have hpte : getPte (vmaRemove m vs start endAddr).2.1 a = getPte m a := by
        rw [hl'.getPte_eq, hl.getPte_eq]
      refine ⟨hpte, fun t ht => hsame a t ?_ ?_⟩
      · rwa [hl.getPte_eq] at ht
      · rwa [hr.inRange_iff ha]

/-- Four pages and a fifth that joins them, from whose middle one is then removed. -/
def joinedCalls : List AreaCall := [.create 0x10000 0x14000 3 0x22, .create 0x14000 0x15000 3 0x22]

theorem areas_refine_map_split :
    let m := mmInit (fun _ => 0) fun _ => false
    let vs := (Runs.runFrom areaCall (m, (vmmInitProcess 1).vmas) joinedCalls).2
    areaMap (vmaRemove m vs 0x11000 0x12000).2.2 = (areaMap vs).assign 0x11000 0x12000 none ∧
      areaMap vs 0x14abc = some (3, 0x22) := by
  intro m vs
  have hrun : Runs.StepsMeet areaCall (fun s c => AreaCallOk s.2 c)
      (m, (vmmInitProcess 1).vmas) joinedCalls := by decide +kernel
  have hcall : AreaCallOk vs (.remove 0x11000 0x12000) := by decide +kernel
  obtain ⟨-, -, hremove⟩ := areas_refine_map m 1 joinedCalls hrun
  have htables := (mmInit_spec (fun _ => 0) fun _ => false).1
  exact ⟨(hremove _ _ hcall m _ htables.linked).1, by decide +kernel⟩

end Bangos.Mm
