import Bangos.Mm.ProtectSlots

/-!
# What protecting a range changes

As a map from addresses, `vma_protect` should change the protection on its range and nothing
else.  It does, as long as no area begins before the range and ends inside it.  Such an area is
split in two, and the new part is given the end of the range for its end instead of the end of
the area: it covers the gap behind the area, or overlaps the next one.
-/

namespace Bangos.Mm

variable {vs vs' : VmaTable} {start endAddr s e q f x b newProt : ℕ} {i j k : Fin maxProcessVmas}
  {l : List (Fin maxProcessVmas)} {v : VmArea}

/-- The map with another protection on `[start, endAddr)`. -/
def AreaMap.reprotect (A : AreaMap) (start endAddr newProt : ℕ) : AreaMap :=
  fun a => if start ≤ a ∧ a < endAddr then (A a).map fun y => (newProt, y.2) else A a

/-- The table `vs'` differs from `vs` in the protection on the range only, and its areas are
disjoint. -/
structure OnlyProtects (start endAddr newProt : ℕ) (vs vs' : VmaTable) : Prop where
  map : areaMap vs' = (areaMap vs).reprotect start endAddr newProt
  disjoint : VmasDisjoint vs'

/-! ## The range gets the new protection -/

/-- Where the area meets the range, it has the new protection. -/
def VmArea.Protected (v : VmArea) (start endAddr newProt : ℕ) : Prop :=
  v.used = true → ∀ x, v.span.Has x → start ≤ x → x < endAddr → v.prot = newProt

lemma Made.protected (hm : Made vs s e q f vs') (hq : q = newProt ∨ endAddr ≤ s)
    (h : (vs k).Protected start endAddr newProt) : (vs' k).Protected start endAddr newProt := by
  rcases hm.slot_cases k with hk | ⟨hkind, hend, hk⟩ | ⟨hkind, -, hk, -⟩ | ⟨-, hk, -⟩
  · rwa [hk]
  · rw [hk]
    intro hu x hx h₁ h₂
    rcases hq with rfl | hq
    · exact hkind.2.1
    · exact h hu x ⟨hx.1, h₂.trans_le (hq.trans_eq hend.symm)⟩ h₁ h₂
  · rw [hk]
    intro hu x hx h₁ h₂
    exact hq.elim (fun hq => hkind.2.1.trans hq) fun hq => absurd (h₂.trans_le (hq.trans hx.1)) (lt_irrefl _)
  · rw [hk]
    intro hu x hx h₁ h₂
    exact hq.elim id fun hq => absurd (h₂.trans_le (hq.trans hx.1)) (lt_irrefl _)

lemma createAll_protected {pieces : List VmArea} (hmade : (createAll vs pieces).1 = true)
    (hp : ∀ a ∈ pieces, a.start < a.endAddr ∧ (a.prot = newProt ∨ endAddr ≤ a.start))
    (h : (vs k).Protected start endAddr newProt) :
    ((createAll vs pieces).2 k).Protected start endAddr newProt := by
  induction pieces generalizing vs with
  | nil => exact h
  | cons a pieces ih =>
    obtain ⟨hlt, hq⟩ := hp a List.mem_cons_self
    rw [createAll, Bool.and_eq_true] at hmade
    exact ih hmade.2 (fun b hb => hp b (List.mem_cons_of_mem _ hb))
      ((vmaCreate_made hlt hmade.1).protected hq h)

lemma reprotecting_protected (start endAddr newProt : ℕ) (v : VmArea) :
    (reprotecting start endAddr newProt v).kept.Protected start endAddr newProt := by
  unfold reprotecting
  split_ifs
  · exact fun _ _ _ _ _ => rfl
  · exact fun _ _ _ _ _ => rfl
  · exact fun _ x hx h₁ _ => absurd (hx.2.trans_le h₁) (lt_irrefl _)
  · exact fun _ x hx h₁ _ => absurd (hx.2.trans_le h₁) (lt_irrefl _)

lemma reprotecting_piece {a : VmArea}
    (ha : a ∈ (reprotecting start endAddr newProt v).pieces) :
    a.prot = newProt ∨ endAddr ≤ a.start := by
  unfold reprotecting at ha
  split_ifs at ha <;> simp only [List.mem_cons, List.not_mem_nil, or_false] at ha
  · exact Or.inr (by rw [ha])
  · exact Or.inl (by rw [ha])
  · rcases ha with rfl | rfl
    · exact Or.inl rfl
    · exact Or.inr le_rfl

lemma carveAll_protected (hlt : start < endAddr)
    (hmade : (carveAll (reprotecting start endAddr newProt) start endAddr vs l).1 = true)
    (h : k ∈ l ∨ (vs k).Protected start endAddr newProt) :
    ((carveAll (reprotecting start endAddr newProt) start endAddr vs l).2 k).Protected
      start endAddr newProt := by
  induction l generalizing vs with
  | nil => exact h.resolve_left (by simp)
  | cons i l ih =>
    rw [carveAll] at hmade ⊢
    split_ifs at hmade ⊢ with hmeets
    · rw [Bool.and_eq_true] at hmade
      refine ih hmade.2 ?_
      by_cases hkl : k ∈ l
      · exact Or.inl hkl
      · have hcarves := reprotecting_carves hlt newProt
        refine Or.inr (createAll_protected hmade.1 (fun a ha =>
          ⟨(hcarves.piece _ hmeets a ha).2, reprotecting_piece ha⟩) ?_)
        by_cases hki : k = i
        · subst hki
          rw [Function.update_self]
          exact reprotecting_protected start endAddr newProt (vs k)
        · rw [Function.update_of_ne hki]
          exact h.resolve_left (by simp [hki, hkl])
    · refine ih hmade ?_
      rcases h with hk | hk
      · rcases List.mem_cons.mp hk with rfl | hk
        · -- an area that does not meet the range
          refine Or.inr fun hu x hx h₁ h₂ => absurd (VmArea.meets_iff.mpr ⟨hu, ?_, ?_⟩) hmeets
          · exact h₁.trans_lt hx.2
          · exact hx.1.trans_lt h₂
        · exact Or.inl hk
      · exact Or.inr hk

/-! ## Without a tail nothing else changes -/

/-- The area covers `x`, with these flags. -/
def VmArea.Flags (v : VmArea) (x f : ℕ) : Prop := v.used = true ∧ v.flags = f ∧ v.span.Has x

lemma VmArea.exists_maps : (∃ q, v.Maps x q f) ↔ v.Flags x f := by
  constructor
  · rintro ⟨q, ⟨hu, -, hf⟩, hx⟩
    exact ⟨hu, hf, hx⟩
  · rintro ⟨hu, hf, hx⟩
    exact ⟨v.prot, ⟨hu, rfl, hf⟩, hx⟩

lemma reprotecting_flags (newProt x f : ℕ) (hmeets : v.meets start endAddr = true)
    (ht : ¬(v.start < start ∧ v.endAddr < endAddr)) :
    ((reprotecting start endAddr newProt v).kept.Flags x f ∨
        ∃ a ∈ (reprotecting start endAddr newProt v).pieces, a.Flags x f) ↔ v.Flags x f := by
  obtain ⟨hu, h₁, h₂⟩ := VmArea.meets_iff.mp hmeets
  unfold reprotecting
  split_ifs <;>
    simp only [VmArea.Flags, VmArea.span, Span.Has, hu, List.mem_cons, List.not_mem_nil, or_false,
      exists_eq_or_imp, exists_eq_left, false_and, exists_false, true_and] <;>
    omega

lemma carve_flags (hlt : start < endAddr) (hsolid : Solid vs)
    (hmeets : (vs i).meets start endAddr = true) (ht : ¬ Tail vs start endAddr i)
    (hmade : (carve vs i (reprotecting start endAddr newProt (vs i))).1 = true) :
    (∃ q, Maps (carve vs i (reprotecting start endAddr newProt (vs i))).2 x q f) ↔
      ∃ q, Maps vs x q f := by
  obtain ⟨hu, h₁, h₂⟩ := VmArea.meets_iff.mp hmeets
  have hmaps := (carve_spec (reprotecting_carves hlt newProt) hsolid hmeets hmade).2
  have hflags := reprotecting_flags newProt x f hmeets
    fun hc => ht ⟨hu, hc.1, h₁, hc.2⟩
  have hold : ∀ q, Maps vs x q f ↔ (vs i).Maps x q f ∨ ∃ k, k ≠ i ∧ (vs k).Maps x q f := fun q => by
    rw [← maps_update, Function.update_eq_self]
  simp only [hmaps, hold, exists_or, VmArea.exists_maps]
  rw [← hflags]
  refine or_congr_left (or_congr_right ?_)
  rw [exists_comm]
  simp only [exists_and_left, VmArea.exists_maps]

lemma carveAll_flags (hlt : start < endAddr) (hd : VmasDisjoint vs)
    (ht : ∀ i, ¬ Tail vs start endAddr i)
    (hmade : (carveAll (reprotecting start endAddr newProt) start endAddr vs l).1 = true) :
    VmasDisjoint (carveAll (reprotecting start endAddr newProt) start endAddr vs l).2 ∧
      ∀ x f, (∃ q, Maps (carveAll (reprotecting start endAddr newProt) start endAddr vs l).2 x q f) ↔
        ∃ q, Maps vs x q f := by
  induction l generalizing vs with
  | nil => exact ⟨hd, fun _ _ => Iff.rfl⟩
  | cons i l ih =>
    rw [carveAll] at hmade ⊢
    split_ifs at hmade ⊢ with hmeets
    · rw [Bool.and_eq_true] at hmade
      have hflags := fun x f => carve_flags (x := x) (f := f) hlt hd.nonempty hmeets (ht i) hmade.1
      have hd' := vmaReprotect_disjoint hd hlt (fun hc => absurd hc (ht i)) hmeets newProt
      have ht' : ∀ j, ¬ Tail (vmaReprotect vs start endAddr newProt i) start endAddr j :=
        fun j hj => ht j (hj.of_reprotect hmeets hlt)
      rw [vmaReprotect_eq] at hd' ht'
      obtain ⟨hd'', hrest⟩ := ih hd' ht' hmade.2
      exact ⟨hd'', fun x f => (hrest x f).trans (hflags x f)⟩
    · exact ih hd ht hmade

/-- Without a tail, `vma_protect` changes the protection on its range and nothing else. -/
lemma onlyProtects_of_not_tail (hlt : start < endAddr) (hd : VmasDisjoint vs)
    (ht : ∀ i, ¬ Tail vs start endAddr i)
    (hmade : (carveAll (reprotecting start endAddr newProt) start endAddr vs
      (List.finRange maxProcessVmas)).1 = true) :
    OnlyProtects start endAddr newProt vs (carveAll (reprotecting start endAddr newProt) start
      endAddr vs (List.finRange maxProcessVmas)).2 := by
  have houtside := fun x q f => carveAll_outside (x := x) (q := q) (f := f)
    (reprotecting_carves hlt newProt) hd.nonempty hmade
  have hprot := fun k => carveAll_protected hlt hmade (Or.inl (List.mem_finRange k))
  obtain ⟨hd', hflags⟩ := carveAll_flags hlt hd ht hmade
  generalize (carveAll (reprotecting start endAddr newProt) start endAddr vs
    (List.finRange maxProcessVmas)).2 = vs' at houtside hprot hd' hflags ⊢
  refine ⟨?_, hd'⟩
  funext a
  unfold AreaMap.reprotect
  split_ifs with ha
  · cases hnew : areaMap vs' a with
    | none =>
      have hold : areaMap vs a = none := by
        rw [areaMap_eq_none, covered_iff_maps, exists_comm] at hnew ⊢
        exact fun ⟨f, hf⟩ => hnew ⟨f, (hflags a f).mpr hf⟩
      rw [hold]
      rfl
    | some y =>
      obtain ⟨q, f⟩ := y
      have hm := maps_of_areaMap hnew
      obtain ⟨q₀, hq₀⟩ := (hflags a f).mp ⟨q, hm⟩
      obtain ⟨k, ⟨hu, rfl, rfl⟩, hx⟩ := hm
      rw [hd.areaMap_of_maps hq₀, hprot k hu a hx ha.1 ha.2]
      rfl
  · exact hd.areaMap_congr fun q f => houtside a q f ha

/-! ## With a tail the next address is covered once more -/

/-- Area `k` contains `b`, and the turns at the slots `l` will not take it away. -/
def Holds (l : List (Fin maxProcessVmas)) (vs : VmaTable) (start b : ℕ) (k : Fin maxProcessVmas) :
    Prop :=
  (vs k).used = true ∧ (vs k).span.Has b ∧ (k ∈ l → start ≤ (vs k).start)

lemma Grown.holds (hg : Grown vs s e vs') (hs : start ≤ s) (hse : s < e)
    (h : Holds l vs start b k) : Holds l vs' start b k := by
  obtain ⟨hu, hb, hl⟩ := h
  cases hg with
  | same => exact ⟨hu, hb, hl⟩
  | right u _ hend =>
    by_cases hku : k = u
    · subst hku
      refine ⟨?_, ?_, fun hk => ?_⟩ <;> rw [Function.update_self]
      · exact hu
      · exact ⟨hb.1, hb.2.trans (hend.trans_lt hse)⟩
      · exact hl hk
    · rw [Holds, Function.update_of_ne hku]
      exact ⟨hu, hb, hl⟩
  | left u _ hstart =>
    by_cases hku : k = u
    · subst hku
      refine ⟨?_, ?_, fun _ => ?_⟩ <;> rw [Function.update_self]
      · exact hu
      · exact ⟨hse.le.trans (hstart.ge.trans hb.1), hb.2⟩
      · exact hs
    · rw [Holds, Function.update_of_ne hku]
      exact ⟨hu, hb, hl⟩
  | fresh u hfree _ _ =>
    have hku : k ≠ u := by
      rintro rfl
      exact absurd (hu.symm.trans hfree) (by simp)
    rw [Holds, Function.update_of_ne hku]
    exact ⟨hu, hb, hl⟩

lemma createAll_holds {pieces : List VmArea}
    (hp : ∀ a ∈ pieces, start ≤ a.start ∧ a.start < a.endAddr) (h : Holds l vs start b k) :
    Holds l (createAll vs pieces).2 start b k := by
  induction pieces generalizing vs with
  | nil => exact h
  | cons a pieces ih =>
    obtain ⟨hs, hse⟩ := hp a List.mem_cons_self
    exact ih (fun b hb => hp b (List.mem_cons_of_mem _ hb))
      ((vmaCreate_grown ..).holds hs hse h)

lemma reprotecting_piece_start (hlt : start < endAddr) {a : VmArea}
    (ha : a ∈ (reprotecting start endAddr newProt v).pieces) : start ≤ a.start := by
  unfold reprotecting at ha
  split_ifs at ha <;> simp only [List.mem_cons, List.not_mem_nil, or_false] at ha
  · rw [ha]
    exact hlt.le
  · rw [ha]
  · rcases ha with rfl | rfl
    · exact le_rfl
    · exact hlt.le

lemma carve_holds (newProt : ℕ) (hlt : start < endAddr) (hb : b < endAddr)
    (hmeets : (vs i).meets start endAddr = true) (hil : i ∉ l) (h : Holds (i :: l) vs start b k) :
    Holds l (carve vs i (reprotecting start endAddr newProt (vs i))).2 start b k := by
  have hcarves := reprotecting_carves hlt newProt
  refine createAll_holds (fun a ha => ⟨reprotecting_piece_start hlt ha,
    (hcarves.piece _ hmeets a ha).2⟩) ?_
  obtain ⟨hu, hk, hl⟩ := h
  by_cases hki : k = i
  · subst hki
    have hlo := hl List.mem_cons_self
    refine ⟨?_, ?_, fun hk => absurd hk hil⟩
    · rw [Function.update_self]
      unfold reprotecting
      split_ifs <;> exact hu
    · rw [Function.update_self]
      unfold reprotecting
      split_ifs with h₁ h₂ h₃
      · exact hk
      · exact ⟨hk.1, hb⟩
      · exact absurd h₃.1 (not_lt.mpr hlo)
      · omega
  · rw [Holds, Function.update_of_ne hki]
    exact ⟨hu, hk, fun hkl => hl (List.mem_cons_of_mem _ hkl)⟩

lemma carveAll_holds (newProt : ℕ) (hlt : start < endAddr) (hb : b < endAddr)
    (hl : l.Nodup) (h : Holds l vs start b k) :
    Holds [] (carveAll (reprotecting start endAddr newProt) start endAddr vs l).2 start b k := by
  induction l generalizing vs with
  | nil => exact h
  | cons i l ih =>
    obtain ⟨hil, hl⟩ := List.nodup_cons.mp hl
    rw [carveAll]
    split_ifs with hmeets
    · exact ih hl (carve_holds newProt hlt hb hmeets hil h)
    · exact ih hl ⟨h.1, h.2.1, fun hk => h.2.2 (List.mem_cons_of_mem _ hk)⟩

lemma Grown.slot_eq (hg : Grown vs s e vs') (hu : (vs k).used = true) (hend : (vs k).endAddr ≠ s)
    (hstart : (vs k).start ≠ e) : vs' k = vs k := by
  cases hg with
  | same => rfl
  | right u _ he => exact Function.update_of_ne (by rintro rfl; exact hend he) ..
  | left u _ hs => exact Function.update_of_ne (by rintro rfl; exact hstart hs) ..
  | fresh u hf _ _ =>
    refine Function.update_of_ne ?_ ..
    rintro rfl
    exact absurd (hu.symm.trans hf) (by simp)

section TailTurn

variable (hd : VmasDisjoint vs) (ht : Tail vs start endAddr i) (hlt : start < endAddr)

include hd ht

lemma eq_of_tail (hj : (vs j).used = true) (hlo : (vs j).start < start)
    (hhi : start < (vs j).endAddr) : j = i :=
  hd.eq_of_has hj ht.1 ⟨hlo.le, hhi⟩ ⟨ht.2.1.le, ht.2.2.1⟩

lemma holds_of_tail (hk : (vs k).used = true) (hb : (vs k).span.Has (vs i).endAddr) :
    Holds l vs start (vs i).endAddr k := by
  refine ⟨hk, hb, fun _ => ?_⟩
  by_contra hlo
  obtain rfl := eq_of_tail hd ht hk (not_le.mp hlo) (ht.2.2.1.trans hb.2)
  exact lt_irrefl _ hb.2

lemma carve_other (newProt : ℕ) (hji : j ≠ i) (hmeets : (vs j).meets start endAddr = true) :
    (carve vs j (reprotecting start endAddr newProt (vs j))).2 i = vs i := by
  obtain ⟨hu, h₁, h₂⟩ := VmArea.meets_iff.mp hmeets
  have hlo : start ≤ (vs j).start := by
    by_contra hlo
    exact hji (eq_of_tail hd ht hu (not_le.mp hlo) h₁)
  unfold reprotecting
  split_ifs with hin hback hfront
  · exact Function.update_of_ne (Ne.symm hji) ..
  · obtain ⟨hui, h₃, h₄, h₅⟩ := ht
    have hold : Function.update vs j { vs j with endAddr := endAddr, prot := newProt } i = vs i :=
      Function.update_of_ne (Ne.symm hji) ..
    refine ((vmaCreate_grown ..).slot_eq ?_ ?_ ?_).trans hold <;> rw [hold]
    · exact hui
    · exact h₅.ne
    · dsimp only
      omega
  · exact absurd hfront.1 (not_lt.mpr hlo)
  · omega

include hlt

/-- The turn at the area with the tail: an area that did not contain the next address does so
afterwards, for good. -/
lemma carve_tail (hil : i ∉ l)
    (hmade : (carve vs i (reprotecting start endAddr newProt (vs i))).1 = true) :
    ∃ k, ¬((vs k).used = true ∧ (vs k).span.Has (vs i).endAddr) ∧
      Holds l (carve vs i (reprotecting start endAddr newProt (vs i))).2 start (vs i).endAddr k := by
  obtain ⟨hu, h₁, h₂, h₃⟩ := ht
  have hst : (vs i).Straddles start := ⟨hu, h₁, h₂⟩
  have heq : reprotecting start endAddr newProt (vs i) =
      ⟨{ vs i with endAddr := start }, [⟨start, endAddr, newProt, (vs i).flags, true⟩]⟩ := by
    unfold reprotecting
    rw [if_neg (by omega), if_neg (by omega), if_pos ⟨h₁, h₃.le⟩]
  rw [heq] at hmade ⊢
  simp only [carve, createAll, Bool.and_true] at hmade ⊢
  have hm := vmaCreate_made hlt hmade
  generalize (vmaCreate (Function.update vs i { vs i with endAddr := start }) start endAddr newProt
    (vs i).flags).2 = vs' at hm ⊢
  cases hm with
  | inside k hk hs he =>
    by_cases hki : k = i
    · subst hki
      rw [Function.update_self] at he
      exact absurd hlt (not_lt.mpr he)
    · rw [Function.update_of_ne hki] at hk hs he
      exact absurd (hd.eq_of_has (x := start) hk.1 hu ⟨hs, hlt.trans_le he⟩ ⟨h₁.le, h₂⟩) hki
  | right k hk he _ =>
    -- the area itself, which ended there
    have hki : k = i := by
      by_contra hki
      rw [Function.update_of_ne hki] at hk he
      exact hd.endAddr_ne hst hki hk.1 he
    subst hki
    refine ⟨k, fun hc => lt_irrefl _ hc.2.2, ?_, ?_, fun hk => absurd hk hil⟩ <;>
      rw [Function.update_self, Function.update_self]
    · exact hu
    · exact ⟨(h₁.trans h₂).le, h₃⟩
  | left k hk hs _ =>
    -- an area that begins at the end of the range
    have hki : k ≠ i := by
      rintro rfl
      rw [Function.update_self] at hs
      exact absurd (h₁.trans hlt) hs.not_lt
    rw [Function.update_of_ne hki] at hk hs
    have hne := hd.nonempty k hk.1
    refine ⟨k, fun hc => absurd hc.2.1 ?_, ?_, ?_, fun _ => ?_⟩
    · exact not_le.mpr (h₃.trans_eq hs.symm)
    · rw [Function.update_self, Function.update_of_ne hki]
      exact hk.1
    · rw [Function.update_self, Function.update_of_ne hki]
      exact ⟨h₂.le, (h₃.trans_eq hs.symm).trans hne⟩
    · rw [Function.update_self]
  | fresh k hk _ =>
    have hki : k ≠ i := by
      rintro rfl
      rw [Function.update_self] at hk
      exact absurd (hu.symm.trans hk) (by simp)
    rw [Function.update_of_ne hki] at hk
    refine ⟨k, fun hc => absurd (hc.1.symm.trans hk) (by simp), ?_⟩
    rw [Holds, Function.update_self]
    exact ⟨rfl, ⟨h₂.le, h₃⟩, fun _ => le_rfl⟩

end TailTurn

/-- The whole loop: the areas that contain the address behind the one with the tail go on doing
so, and one more does. -/
lemma carveAll_tail (hd : VmasDisjoint vs) (ht : Tail vs start endAddr i) (hlt : start < endAddr)
    (hil : i ∈ l) (hl : l.Nodup)
    (hmade : (carveAll (reprotecting start endAddr newProt) start endAddr vs l).1 = true) :
    ∃ k, ¬((vs k).used = true ∧ (vs k).span.Has (vs i).endAddr) ∧
      Holds [] (carveAll (reprotecting start endAddr newProt) start endAddr vs l).2 start
        (vs i).endAddr k := by
  induction l generalizing vs with
  | nil => cases hil
  | cons j l ih =>
    obtain ⟨hjl, hl⟩ := List.nodup_cons.mp hl
    rw [carveAll] at hmade ⊢
    by_cases hji : j = i
    · subst hji
      have hmeets : (vs j).meets start endAddr = true :=
        VmArea.meets_iff.mpr ⟨ht.1, ht.2.2.1, ht.2.1.trans hlt⟩
      rw [if_pos hmeets] at hmade ⊢
      rw [Bool.and_eq_true] at hmade
      obtain ⟨k, hnew, hk⟩ := carve_tail hd ht hlt hjl hmade.1
      exact ⟨k, hnew, carveAll_holds newProt hlt ht.2.2.2 hl hk⟩
    have hil : i ∈ l := (List.mem_cons.mp hil).resolve_left (Ne.symm hji)
    split_ifs at hmade ⊢ with hmeets
    · rw [Bool.and_eq_true] at hmade
      have hother := carve_other hd ht newProt hji hmeets
      have hd' := vmaReprotect_disjoint hd hlt (fun hc => absurd (eq_of_tail hd ht hc.1 hc.2.1 hc.2.2.1)
        hji) hmeets newProt
      rw [vmaReprotect_eq] at hd'
      have ht' : Tail (carve vs j (reprotecting start endAddr newProt (vs j))).2 start endAddr i := by
        rw [Tail, hother]
        exact ht
      obtain ⟨k, hnew, hk⟩ := ih hd' ht' hil hl hmade.2
      rw [hother] at hnew hk
      refine ⟨k, fun hc => hnew ?_, hk⟩
      have hkept := carve_holds (l := l) newProt hlt ht.2.2.2 hmeets hjl
        (holds_of_tail hd ht hc.1 hc.2)
      exact ⟨hkept.1, hkept.2.1⟩
    · exact ih hd ht hil hl hmade

/-- **When `vma_protect` changes the protection on its range and nothing else**: when no area
begins before the range and ends inside it. -/
theorem protects_only_iff (hd : VmasDisjoint vs) (hfree : 2 ≤ freeSlots vs)
    (hlt : start < endAddr) (m : Mem) (newProt : ℕ) :
    ((vmaProtect m vs start endAddr newProt).1 = 0 → OnlyProtects start endAddr newProt vs
        (vmaProtect m vs start endAddr newProt).2.2) ↔ ∀ i, ¬ Tail vs start endAddr i := by
  have hret : (vmaProtect m vs start endAddr newProt).1 = 0 := by
    rw [vmaProtect, if_neg (not_le.mpr hlt)]
  have hmade : (carveAll (reprotecting start endAddr newProt) start endAddr vs
      (List.finRange maxProcessVmas)).1 = true :=
    (protect_made_iff (protecting_of_disjoint hd) (List.sortedLT_finRange _).pairwise hlt).mpr
      (slotsNeeded_le.trans hfree)
  rw [vmaProtect_carveAll m vs newProt hlt, hret, eq_self_iff_true, forall_true_left]
  constructor
  · intro h i ht
    obtain ⟨k, hnew, hk⟩ := carveAll_tail hd ht hlt (List.mem_finRange i) (List.nodup_finRange _) hmade
    have hcovered : Covered vs (vs i).endAddr := by
      by_contra hc
      have hafter := h.disjoint.areaMap_of_has hk.1 hk.2.1
      rw [h.map, AreaMap.reprotect, if_pos ⟨ht.2.2.1.le, ht.2.2.2⟩, areaMap_eq_none.mpr hc] at hafter
      cases hafter
    -- an area that contained the address still does, so two overlap
    obtain ⟨j, hj, hb⟩ := hcovered
    have hold := carveAll_holds newProt hlt ht.2.2.2 (List.nodup_finRange _)
      (holds_of_tail hd ht hj hb)
    obtain rfl := h.disjoint.eq_of_has hold.1 hk.1 hold.2.1 hk.2.1
    exact hnew ⟨hj, hb⟩
  · exact fun ht => onlyProtects_of_not_tail hlt hd ht hmade

/-- One area, of three pages. -/
def threePages : VmaTable :=
  Function.update (fun _ => VmArea.empty) 0 ⟨0x1000, 0x4000, 3, 0x22, true⟩

lemma threePages_disjoint : VmasDisjoint threePages :=
  vmasWf_empty.disjoint.update (fun _ => by decide) fun _ _ _ hj => by cases hj

/-- The middle page is made read-only. -/
theorem protects_only_middle :
    OnlyProtects 0x2000 0x3000 1 threePages
      (vmaProtect (mmInit (fun _ => 0) fun _ => false) threePages 0x2000 0x3000 1).2.2 :=
  (protects_only_iff threePages_disjoint (by decide +kernel) (by decide)
    (mmInit (fun _ => 0) fun _ => false) 1).mpr (by decide +kernel) rfl

/-- The last page and the one behind it, which is in no area: both are in one afterwards. -/
theorem protect_covers_gap : 2 ≤ freeSlots threePages ∧ VmasDisjoint threePages ∧
    ¬((vmaProtect (mmInit (fun _ => 0) fun _ => false) threePages 0x3000 0x5000 1).1 = 0 →
      OnlyProtects 0x3000 0x5000 1 threePages
        (vmaProtect (mmInit (fun _ => 0) fun _ => false) threePages 0x3000 0x5000 1).2.2) := by
  refine ⟨by decide +kernel, threePages_disjoint, fun h => ?_⟩
  have hmap := congrFun (h rfl).map 0x4000
  rw [vmaProtect_carveAll _ _ _ (by decide)] at hmap
  exact absurd hmap (by decide +kernel)

end Bangos.Mm
