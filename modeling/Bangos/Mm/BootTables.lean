import Bangos.Mm.UserPages

/-!
# The page tables `mm_init` builds

`mm_init` maps the first four gigabytes to themselves with 2 MB pages, in six tables.  From
there on, and from every state whose tables are sound, `map_page` maps one page and leaves all
others as they are, also those of a 2 MB page that it splits.
-/

namespace Bangos.Mm

open ByteMem PathTree

variable {m : Mem} {T : List ℕ → Option ℕ} {p : List ℕ} {t i j f n : ℕ}

/-! ## Filling a page directory -/

/-- The loop of `mm_init` over the 2 MB pages of a gigabyte, after `n` turns. -/
def gbUpTo (m : Mem) (pd gb n : ℕ) : Mem :=
  (List.range n).foldl
    (fun m k => setEntry m pd k (gb * 0x40000000 + k * 0x200000 ||| pagePwu ||| 0x80)) m

lemma gbUpTo_succ (m : Mem) (pd gb n : ℕ) :
    gbUpTo m pd gb (n + 1) =
      setEntry (gbUpTo m pd gb n) pd n (gb * 0x40000000 + n * 0x200000 ||| pagePwu ||| 0x80) := by
  rw [gbUpTo, List.range_succ, List.foldl_append]
  rfl

lemma hugeEntry_eq (hf : f % 0x200000 = 0) : f ||| pagePwu ||| 0x80 = f + 0x87 := by
  rw [Nat.lor_assoc]
  exact lor_eq_add (by omega) (by decide)

lemma Shape.setHuge (h : Shape m T) (hp : T p = some t) (hl : p.length = 2) (hi : i < 512)
    (hnone : T (i :: p) = none) (hf : f % 0x200000 = 0) (hlt : f + 0x87 < 2 ^ 64) :
    Shape (setEntry m t i (f + 0x87)) T := by
  have hother : ∀ q s j, T q = some s → j < 512 → (q = p → j ≠ i) →
      entry (setEntry m t i (f + 0x87)) s j = entry m s j := fun q s j hq hj hne =>
    entry_setEntry_of_ne (h.aligned hp) (h.aligned hq) hi hj
      (fun hst => hne (h.tree.inj hq (hst ▸ hp))) _
  refine ⟨h.root, h.tree, h.depth, h.index, h.held, ?_, ?_⟩
  · intro j q s s' hq hc
    rw [hother q s j hq (h.index hc)]
    · exact h.child hq hc
    · rintro rfl rfl
      exact absurd (hnone.symm.trans hc) (by simp)
  · intro j q s hq hl' hj hc
    by_cases hqp : q = p ∧ j = i
    · obtain ⟨rfl, rfl⟩ := hqp
      obtain rfl := Option.some.inj (hq.symm.trans hp)
      rw [entry_setEntry_self, Nat.mod_eq_of_lt hlt]
      obtain ⟨hpres, hw, hu, hh, -⟩ := hugeEntry hf
      exact Or.inr ⟨hl, hh, hpres, hw, hu⟩
    · rw [hother q s j hq hj fun he hji => hqp ⟨he, hji⟩]
      exact h.leaf hq hl' hj hc

lemma gbUpTo_spec {gb : ℕ} (h : Shape m T) (hp : T p = some t) (hl : p.length = 2)
    (hnone : ∀ i, T (i :: p) = none) (hgb : gb < 4) (n : ℕ) (hn : n ≤ 512) :
    Shape (gbUpTo m t gb n) T ∧ (gbUpTo m t gb n).pageBitmap = m.pageBitmap ∧
      (∀ q s j, T q = some s → s ≠ t → j < 512 → entry (gbUpTo m t gb n) s j = entry m s j) ∧
      ∀ j < n, entry (gbUpTo m t gb n) t j = gb * 0x40000000 + j * 0x200000 + 0x87 := by
  induction n with
  | zero => exact ⟨h, rfl, fun _ _ _ _ _ _ => rfl, fun j hj => absurd hj (by omega)⟩
  | succ n ih =>
    obtain ⟨hs, hbm, hother, hval⟩ := ih (by omega)
    have hf : (gb * 0x40000000 + n * 0x200000) % 0x200000 = 0 := by omega
    have hlt : gb * 0x40000000 + n * 0x200000 + 0x87 < 2 ^ 64 := by omega
    have ht := h.aligned hp
    rw [gbUpTo_succ, hugeEntry_eq hf]
    refine ⟨hs.setHuge hp hl (by omega) (hnone n) hf hlt, hbm, ?_, ?_⟩
    · intro q s j hq hne hj
      rw [entry_setEntry_of_ne ht (h.aligned hq) (by omega) hj fun he => absurd he hne]
      exact hother q s j hq hne hj
    · intro j hj
      by_cases hjn : j = n
      · subst hjn
        rw [entry_setEntry_self, Nat.mod_eq_of_lt hlt]
      · rw [entry_setEntry_of_ne ht ht (by omega) (by omega) fun _ => hjn]
        exact hval j (by omega)

/-! ## The tables after each gigabyte -/

/-- The tables after `n` gigabytes, each directory mapping its gigabyte to itself. -/
structure BootShape (m : Mem) (pdpt n : ℕ) (T : List ℕ → Option ℕ) : Prop where
  shape : Shape m T
  pdpt : T [0] = some pdpt
  noPt : ∀ p, p.length = 3 → T p = none
  toCome : ∀ g, n ≤ g → T [g, 0] = none
  done : ∀ g < n, ∃ t, T [g, 0] = some t ∧
    ∀ j < 512, entry m t j = g * 0x40000000 + j * 0x200000 + 0x87
  count : freeFrames m + (n + 2) = maxPages

lemma mmInitGb_spec {pdpt : ℕ} (h : BootShape m pdpt n T) (hn : n < 4) :
    ∃ T', BootShape (mmInitGb pdpt m n) pdpt (n + 1) T' := by
  have hfree : 0 < freeFrames m := by
    have := h.count
    unfold maxPages at this
    omega
  obtain ⟨k, hk, ha, hzero⟩ := linkTable_spec h.shape h.pdpt (i := n) (by simp) (by omega)
    (h.toCome n le_rfl) hfree
  have hs := ha.shape h.shape fun _ => hzero
  have hcount := ha.freeFrames
  have hnone : ∀ i, insert T [n, 0] (frameAddr k) [i, n, 0] = none := fun i => by
    rw [insert_of_ne (by simp)]
    exact h.noPt _ rfl
  obtain ⟨hs', hbm, hother, hval⟩ := gbUpTo_spec hs (p := [n, 0]) insert_self rfl hnone hn 512 le_rfl
  have hm : mmInitGb pdpt m n =
      gbUpTo (setEntry (allocPage m).2 pdpt n ((allocPage m).1.getD 0 ||| pagePwu))
        ((allocPage m).1.getD 0) n 512 := rfl
  rw [hm, hk, Option.getD_some]
  refine ⟨insert T [n, 0] (frameAddr k), hs', ?_, ?_, ?_, ?_, ?_⟩
  · rw [insert_of_ne (by simp)]
    exact h.pdpt
  · intro p hp
    rw [insert_of_ne (by rintro rfl; simp at hp)]
    exact h.noPt p hp
  · intro g hg
    rw [insert_of_ne (by simp; omega)]
    exact h.toCome g (by omega)
  · intro g hg
    by_cases hgn : g = n
    · subst hgn
      exact ⟨frameAddr k, insert_self, hval⟩
    · obtain ⟨t, ht, hent⟩ := h.done g (by omega)
      have ht' : insert T [n, 0] (frameAddr k) [g, 0] = some t := insert_of_some ha.absent ht
      have htne : t ≠ frameAddr k := fun he => ha.fresh h.shape _ (he ▸ ht)
      refine ⟨t, ht', fun j hj => ?_⟩
      rw [hother _ _ _ ht' htne hj, ha.other _ _ _ ht hj, hent j hj]
      -- the directory is not the table its entry was linked in
      rintro rfl
      exact absurd (h.shape.tree.inj ht h.pdpt) (by simp)
  · have := h.count
    rw [freeFrames_congr hbm]
    omega

lemma allocPage_low {x : ℕ} (m : Mem) (hx : x < physMemoryBase) :
    (allocPage m).2.phys x = m.phys x := by
  rcases ha : allocPage m with ⟨_ | a, m1⟩
  · rw [allocPages_eq_none (show allocPages m 1 = (none, m1) from ha)]
  · obtain ⟨i, -, -, -, -, rfl⟩ := allocPages_eq_some (by decide)
      (show allocPages m 1 = (some a, m1) from ha)
    refine fill_apply_of_not_mem (Or.inl ?_)
    unfold frameAddr
    omega

lemma gbUpTo_low {gb x : ℕ} (ht : physMemoryBase ≤ t) (hx : x < physMemoryBase) (n : ℕ) :
    (gbUpTo m t gb n).phys x = m.phys x := by
  induction n with
  | zero => rfl
  | succ n ih =>
    rw [gbUpTo_succ]
    exact (putLe_apply_of_not_mem (Or.inl (by omega))).trans ih

lemma mmInitGb_low {pdpt x : ℕ} (h : BootShape m pdpt n T) (hn : n < 4) (hx : x < physMemoryBase) :
    (mmInitGb pdpt m n).phys x = m.phys x := by
  have hcount := h.count
  unfold maxPages at hcount
  obtain ⟨k, -, -, ha⟩ := allocPage_spec (m := m) (by omega)
  obtain ⟨j, -, hj, -⟩ := h.shape.held h.pdpt
  have hm : mmInitGb pdpt m n =
      gbUpTo (setEntry (allocPage m).2 pdpt n ((allocPage m).1.getD 0 ||| pagePwu))
        ((allocPage m).1.getD 0) n 512 := rfl
  rw [hm, gbUpTo_low (by rw [ha, Option.getD_some, frameAddr]; omega) hx]
  refine (putLe_apply_of_not_mem (Or.inl ?_)).trans (allocPage_low m hx)
  rw [hj, frameAddr]
  omega

lemma mmInit_upper (phys : ℕ → UInt8) (oob : ℕ → Bool) :
    ∃ m pdpt T, BootShape m pdpt 0 T ∧ mmInit phys oob = (List.range 4).foldl (mmInitGb pdpt) m ∧
      ∀ x < physMemoryBase, m.phys x = phys x := by
  obtain ⟨m0, hm0⟩ : ∃ m0 : Mem, m0 = ⟨phys, fun k => if k < maxPages then false else oob k, 0⟩ :=
    ⟨_, rfl⟩
  have hall : freeFrames m0 = maxPages := by
    rw [freeFrames, freeSet, Finset.filter_true_of_mem, Finset.card_range]
    intro k hk
    simp [hm0, Finset.mem_range.mp hk]
  obtain ⟨k0, hk0, hbit, halloc⟩ := allocPage_spec (m := m0) (by rw [hall]; decide)
  obtain ⟨m1, hm1⟩ : ∃ m1 : Mem, m1 = { (allocPage m0).2 with kernelPml4 := frameAddr k0 } :=
    ⟨_, rfl⟩
  have hcount1 : freeFrames m1 + 1 = maxPages := by
    have hcount := freeFrames_allocPages (by decide) (show allocPages m0 1 = _ from halloc)
    rwa [hall, ← freeFrames_congr (show m1.pageBitmap = _ by rw [hm1, halloc])] at hcount
  have hs1 : Shape m1 fun p => if p = [] then some (frameAddr k0) else none := by
    refine ⟨by simp [hm1], ⟨by simp, ?_⟩, ?_, by simp, ?_, by simp, ?_⟩
    · intro p q a hp hq
      split_ifs at hp hq with h1 h2
      rw [h1, h2]
    · intro p t hp
      split_ifs at hp with h1
      simp [h1]
    · intro p t hp
      split_ifs at hp with h1
      obtain rfl := Option.some.inj hp
      exact ⟨k0, hk0, rfl, by simp [hm1, halloc]⟩
    · intro i p t hp _ hi _
      split_ifs at hp with h1
      obtain rfl := Option.some.inj hp
      have hzero : entry m1 (frameAddr k0) i = 0 := by
        rw [entry, hm1, halloc]
        refine le_fill_zero (by omega) ?_
        unfold pageSize
        omega
      rw [hzero]
      exact isLeafEntry_zero _
  obtain ⟨k1, hk1, ha, hzero⟩ := linkTable_spec hs1 (p := []) (t := frameAddr k0) (i := 0) rfl
    (by simp) (by norm_num) rfl (by unfold maxPages at hcount1; omega)
  refine ⟨_, frameAddr k1, _, ⟨ha.shape hs1 fun _ => hzero, insert_self, ?_, ?_, ?_, ?_⟩, ?_, ?_⟩
  · intro p hp
    rw [insert_of_ne (by rintro rfl; simp at hp), if_neg (by rintro rfl; simp at hp)]
  · intro g _
    rw [insert_of_ne (by simp)]
    rfl
  · intro g hg
    omega
  · have := ha.freeFrames
    omega
  · have hroot : (allocPage m1).2.kernelPml4 = frameAddr k0 := by
      rw [show (allocPage m1).2.kernelPml4 = m1.kernelPml4 from ha.root, hm1]
    have hpair : allocPage m1 = (some (frameAddr k1), (allocPage m1).2) := by rw [← hk1]
    dsimp only [mmInit]
    rw [← hm0, halloc]
    dsimp only
    rw [halloc] at hm1
    rw [Option.getD_some, ← hm1, hpair]
    dsimp only
    rw [Option.getD_some, hroot]
  · intro x hx
    refine (putLe_apply_of_not_mem (Or.inl ?_)).trans ((allocPage_low m1 hx).trans ?_)
    · unfold frameAddr
      omega
    · rw [hm1]
      exact (allocPage_low m0 hx).trans (by rw [hm0])

/-! ## The root -/

lemma gbUpTo_kernelPml4 (m : Mem) (pd gb n : ℕ) : (gbUpTo m pd gb n).kernelPml4 = m.kernelPml4 := by
  induction n with
  | zero => rfl
  | succ n ih => rw [gbUpTo_succ, setEntry_kernelPml4, ih]

lemma mmInitGb_kernelPml4 (pdpt : ℕ) (m : Mem) (gb : ℕ) :
    (mmInitGb pdpt m gb).kernelPml4 = m.kernelPml4 := by
  have hm : mmInitGb pdpt m gb = gbUpTo (setEntry (allocPage m).2 pdpt gb
      ((allocPage m).1.getD 0 ||| pagePwu)) ((allocPage m).1.getD 0) gb 512 := rfl
  rw [hm, gbUpTo_kernelPml4, setEntry_kernelPml4, allocPage, allocPages_kernelPml4]

lemma mmInit_kernelPml4 (phys : ℕ → UInt8) (oob : ℕ → Bool) :
    (mmInit phys oob).kernelPml4 = physMemoryBase := by
  have hfirst : ∀ m : Mem, (∀ k < maxPages, m.pageBitmap k = false) →
      (allocPage m).1 = some physMemoryBase := by
    intro m hfree
    obtain ⟨i, hi, m', ha⟩ := allocPages_isSome Nat.one_pos (m := m) (r := 0)
      (fun k _ hk => hfree k (by unfold maxPages; omega)) (by decide)
    obtain rfl : i = 0 := by omega
    rw [allocPage, ha]
    rfl
  have hfold : ∀ (gbs : List ℕ) (pdpt : ℕ) (m : Mem),
      (gbs.foldl (mmInitGb pdpt) m).kernelPml4 = m.kernelPml4 := by
    intro gbs pdpt
    induction gbs with
    | nil => exact fun _ => rfl
    | cons gb gbs ih =>
      intro m
      rw [List.foldl_cons, ih, mmInitGb_kernelPml4]
  obtain ⟨m0, hm0⟩ : ∃ m0 : Mem, m0 = ⟨phys, fun k => if k < maxPages then false else oob k, 0⟩ :=
    ⟨_, rfl⟩
  have hr := hfirst m0 fun k hk => by rw [hm0]; exact if_pos hk
  rcases h0 : allocPage m0 with ⟨r0, m1⟩
  rw [h0] at hr
  have hroot := allocPages_kernelPml4 { m1 with kernelPml4 := r0.getD 0 } 1
  dsimp only [mmInit]
  rw [← hm0, h0]
  rw [← allocPage] at hroot
  dsimp only
  rcases h1 : allocPage { m1 with kernelPml4 := r0.getD 0 } with ⟨r1, m2⟩
  rw [h1] at hroot
  dsimp only at hroot hr ⊢
  rw [hfold, setEntry_kernelPml4, hroot, hr]
  rfl

lemma identity_frame (v : ℕ) :
    v / 0x40000000 * 0x40000000 + pdIdx v * 0x200000 + v % 0x200000 / 4096 * 4096 = frameOf v := by
  unfold pdIdx frameOf
  omega

/-- **The tables of `mm_init`** are sound, map the first four gigabytes to themselves, and
leave all but six frames free. -/
theorem mmInit_spec (phys : ℕ → UInt8) (oob : ℕ → Bool) :
    TablesOk (mmInit phys oob) ∧ freeFrames (mmInit phys oob) + 6 = maxPages ∧
      ∀ v < 0x100000000, walk (mmInit phys oob) v = some ⟨frameOf v, true, true⟩ := by
  obtain ⟨m, pdpt, T, h0, hm, -⟩ := mmInit_upper phys oob
  obtain ⟨T1, h1⟩ := mmInitGb_spec h0 (by norm_num)
  obtain ⟨T2, h2⟩ := mmInitGb_spec h1 (by norm_num)
  obtain ⟨T3, h3⟩ := mmInitGb_spec h2 (by norm_num)
  obtain ⟨T4, h4⟩ := mmInitGb_spec h3 (by norm_num)
  have hm' : mmInit phys oob =
      mmInitGb pdpt (mmInitGb pdpt (mmInitGb pdpt (mmInitGb pdpt m 0) 1) 2) 3 := by
    rw [hm, show List.range 4 = [0, 1, 2, 3] from rfl]
    simp only [List.foldl_cons, List.foldl_nil]
  rw [hm']
  refine ⟨h4.shape.tablesOk, h4.count, fun v hv => ?_⟩
  have hpath : path2 v = [v / 0x40000000, 0] := by
    unfold path2 path1 pdptIdx pml4Idx
    rw [Nat.mod_eq_of_lt (by omega : v / 0x40000000 < 512),
      (by omega : v / 0x8000000000 % 512 = 0)]
  obtain ⟨t, ht, hent⟩ := h4.done (v / 0x40000000) (by omega)
  have hf : (v / 0x40000000 * 0x40000000 + pdIdx v * 0x200000) % 0x200000 = 0 := by omega
  obtain ⟨hp, hw, hu, -, hfr⟩ := hugeEntry hf
  rw [h4.shape.walk_eq, walkTree, h4.noPt (path3 v) rfl, hpath, ht]
  dsimp only
  rw [hent _ (idx_lt v).2.2.1, hugePte, if_pos hp, hw, hu, hfr, identity_frame]

/-- `mm_init` writes to the pool only. -/
lemma mmInit_low (phys : ℕ → UInt8) (oob : ℕ → Bool) {x : ℕ} (hx : x < physMemoryBase) :
    (mmInit phys oob).phys x = phys x := by
  obtain ⟨m, pdpt, T, h0, hm, hlow⟩ := mmInit_upper phys oob
  obtain ⟨T1, h1⟩ := mmInitGb_spec h0 (by norm_num)
  obtain ⟨T2, h2⟩ := mmInitGb_spec h1 (by norm_num)
  obtain ⟨T3, h3⟩ := mmInitGb_spec h2 (by norm_num)
  rw [hm, show List.range 4 = [0, 1, 2, 3] from rfl]
  simp only [List.foldl_cons, List.foldl_nil]
  rw [mmInitGb_low h3 (by norm_num) hx, mmInitGb_low h2 (by norm_num) hx,
    mmInitGb_low h1 (by norm_num) hx, mmInitGb_low h0 (by norm_num) hx, hlow x hx]

/-! ## Mapping a page -/

/-- **`map_page` maps one page.**  When its calls of `alloc_page` succeed, the tables are sound
again and hold what they held, the page of `virt` maps the frame of `phys` with the rights of
`flags`, and every other page maps what it did.  The last clause is about flags that reach into
the address: they are part of the entry. -/
theorem mapPage_maps_one_page (h : TablesOk m) (virt phys flags : ℕ) (hphys : phys < 2 ^ 64)
    (hflags : flags < 2 ^ 64) (hpres : isPresent flags = true) (ha : AllocsSucceed m virt) :
    let m' := mapPage m virt phys flags
    TablesOk m' ∧ (∀ p t, tables m p = some t → tables m' p = some t) ∧
    (∀ v, pageKey v = pageKey virt → flags < 4096 →
      walk m' v = some ⟨frameOf phys, isWritable flags, isUser flags⟩) ∧
    (∀ v, pageKey v ≠ pageKey virt → walk m' v = walk m v) ∧
    ∀ v, pageKey v = pageKey virt → walk m' v = leafPte (frameOf phys ||| flags) := by
  intro m'
  obtain ⟨T', hg, hw⟩ := ensureTables_of_allocs h ha
  obtain ⟨hg, hwalk⟩ := mapPage_of_tables phys flags hg hw
  refine ⟨hg.shape.tablesOk, ?_, ?_, ?_, ?_⟩
  · intro p t hp
    rw [← hg.shape.eq_tables]
    exact hg.old hp
  · intro v hv hsmall
    rw [hwalk v, if_pos hv, leafPte_lor hphys hsmall hpres]
  · intro v hv
    rw [hwalk v, if_neg hv]
  · intro v hv
    have hlt : frameOf phys ||| flags < 2 ^ 64 :=
      Nat.or_lt_two_pow (lt_of_le_of_lt (Nat.div_mul_le_self _ _) hphys) hflags
    rw [hwalk v, if_pos hv, Nat.mod_eq_of_lt hlt]

/-- The 2 MB page at 4 MB is split to move its first page; the next one stays where it was. -/
theorem mapPage_maps_one_page_split :
    let m := mmInit (fun _ => 0) fun _ => false
    walk (mapPage m 0x400000 0x5000 7) 0x400abc = some ⟨0x5000, true, true⟩ ∧
      walk (mapPage m 0x400000 0x5000 7) 0x401abc = some ⟨0x401000, true, true⟩ := by
  intro m
  obtain ⟨hok, hfree, hid⟩ := mmInit_spec (fun _ => 0) fun _ => false
  have hthree : 3 ≤ freeFrames m := by
    unfold maxPages at hfree
    show 3 ≤ freeFrames (mmInit _ _)
    omega
  obtain ⟨-, -, hself, hother, -⟩ := mapPage_maps_one_page hok 0x400000 0x5000 7 (by norm_num)
    (by norm_num) (by decide) (allocsSucceed_of_free hok hthree)
  constructor
  · exact hself 0x400abc (by decide) (by norm_num)
  · rw [hother 0x401abc (by decide), hid _ (by norm_num)]
    rfl

end Bangos.Mm
