import Bangos.Mm.AreaSlots

/-!
# The slots that protecting a range takes

`vma_protect` splits the area that the range begins in and the one it ends in.  Each split needs
a slot for a new piece, unless the piece can be joined to an area that is there.  Both splits may
happen at one area, in either order at two, and a piece of the first may be what the second is
joined to; the loop may also come to a new piece again.  The count is carried through the loop:
a turn takes as many slots as it makes fewer needed afterwards.
-/

namespace Bangos.Mm

variable {vs vs' : VmaTable} {start endAddr q f x newProt : ℕ} {i j k : Fin maxProcessVmas}
  {l : List (Fin maxProcessVmas)} {v : VmArea}

/-! ## The slots needed -/

/-- Among the slots `l`, an area of another protection reaches over the end of the range, and no
area of its kind begins where it ends: what it has behind the range needs a slot. -/
def NeedsRight (l : List (Fin maxProcessVmas)) (vs : VmaTable) (endAddr newProt : ℕ) : Prop :=
  ∃ w ∈ l, (vs w).Straddles endAddr ∧ (vs w).prot ≠ newProt ∧
    ¬ Neighbour vs (vs w).endAddr (vs w).prot (vs w).flags

/-- An area in a slot before `v` reaches over the end of the range and has the new protection, and
the flags of area `v`, already.  What it has behind the range goes to an area in a slot before
its own, which then begins at the end of the range when the loop comes to `v`. -/
def HandsOver (l : List (Fin maxProcessVmas)) (vs : VmaTable) (endAddr newProt : ℕ)
    (v : Fin maxProcessVmas) : Prop :=
  ∃ w ∈ l, w < v ∧ (vs w).Straddles endAddr ∧ (vs w).Kind newProt (vs v).flags ∧
    ∃ u, u < w ∧ (vs u).Kind newProt (vs v).flags ∧ (vs u).start = (vs w).endAddr

/-- Among the slots `l`, an area of another protection reaches over the start of the range, and no
area with its flags and the new protection begins at the end of the range: the part of the
range in it needs a slot. -/
def NeedsLeft (l : List (Fin maxProcessVmas)) (vs : VmaTable) (start endAddr newProt : ℕ) : Prop :=
  ∃ v ∈ l, (vs v).Straddles start ∧ (vs v).prot ≠ newProt ∧
    ¬ Neighbour vs endAddr newProt (vs v).flags ∧ ¬ HandsOver l vs endAddr newProt v

instance (l : List (Fin maxProcessVmas)) (vs : VmaTable) (endAddr newProt : ℕ) :
    Decidable (NeedsRight l vs endAddr newProt) := inferInstanceAs (Decidable (∃ w ∈ l, _))

instance (l : List (Fin maxProcessVmas)) (vs : VmaTable) (endAddr newProt : ℕ)
    (v : Fin maxProcessVmas) : Decidable (HandsOver l vs endAddr newProt v) :=
  inferInstanceAs (Decidable (∃ w ∈ l, _))

instance (l : List (Fin maxProcessVmas)) (vs : VmaTable) (start endAddr newProt : ℕ) :
    Decidable (NeedsLeft l vs start endAddr newProt) := inferInstanceAs (Decidable (∃ v ∈ l, _))

/-- The slots that the turns of `vma_protect` at the slots `l` need. -/
def slotsNeeded (l : List (Fin maxProcessVmas)) (vs : VmaTable) (start endAddr newProt : ℕ) : ℕ :=
  (if NeedsLeft l vs start endAddr newProt then 1 else 0) +
    if NeedsRight l vs endAddr newProt then 1 else 0

lemma slotsNeeded_le : slotsNeeded l vs start endAddr newProt ≤ 2 := by
  unfold slotsNeeded
  split_ifs <;> omega

lemma slotsNeeded_congr {l' : List (Fin maxProcessVmas)}
    (hleft : NeedsLeft l' vs' start endAddr newProt ↔ NeedsLeft l vs start endAddr newProt)
    (hright : NeedsRight l' vs' endAddr newProt ↔ NeedsRight l vs endAddr newProt) :
    slotsNeeded l' vs' start endAddr newProt = slotsNeeded l vs start endAddr newProt := by
  simp only [slotsNeeded, hleft, hright]

/-- What holds of the table while `vma_protect` still has the slots `l` to visit.  Until the area
that the range begins in is split the areas are disjoint; from then on the new area may overlap
what is behind the old one, but then it has the new protection and ends with the range. -/
structure Protecting (l : List (Fin maxProcessVmas)) (vs : VmaTable) (start endAddr newProt : ℕ) :
    Prop where
  solid : Solid vs
  left : ∀ v ∈ l, (vs v).Straddles start → VmasDisjoint vs
  right : ∀ w ∈ l, (vs w).Straddles endAddr → (vs w).prot ≠ newProt → ∀ k, k ≠ w →
    (vs k).used = true →
      (vs k).span.Apart (vs w).span ∨ (vs k).prot = newProt ∧ (vs k).endAddr ≤ endAddr

/-- What a turn at slot `i` has to do with the slots needed: it makes its pieces when there are
the `c` slots for them, and then as many fewer are free, and needed. -/
def TurnCounts (i : Fin maxProcessVmas) (l : List (Fin maxProcessVmas)) (vs : VmaTable)
    (start endAddr newProt : ℕ) (made : Bool) (vs' : VmaTable) : Prop :=
  ∃ c ≤ slotsNeeded (i :: l) vs start endAddr newProt, (made = true ↔ c ≤ freeSlots vs) ∧
    (made = true → freeSlots vs' + c = freeSlots vs ∧ Protecting l vs' start endAddr newProt ∧
      slotsNeeded l vs' start endAddr newProt + c = slotsNeeded (i :: l) vs start endAddr newProt)

lemma protecting_of_disjoint (hd : VmasDisjoint vs) : Protecting l vs start endAddr newProt where
  solid := hd.nonempty
  left _ _ _ := hd
  right w _ hw _ k hkw hk := Or.inl (hd.apart k w hkw hk hw.1)

/-- Slots whose areas begin behind the range, and the slots to come, are as before: so are their
neighbours. -/
lemma neighbour_congr {a : ℕ} (ha : endAddr ≤ a)
    (hfar : ∀ u, endAddr ≤ (vs u).start ∨ endAddr ≤ (vs' u).start → vs' u = vs u) :
    Neighbour vs' a q f ↔ Neighbour vs a q f := by
  refine exists_congr fun u => ?_
  constructor
  · rintro ⟨hk, rfl⟩
    rw [hfar u (Or.inr ha)] at hk ⊢
    exact ⟨hk, rfl⟩
  · rintro ⟨hk, rfl⟩
    rw [hfar u (Or.inl ha)]
    exact ⟨hk, rfl⟩

/-- A turn at an area that reaches over neither end of the range changes no need, when it leaves
alone the slots to come and the areas behind the range. -/
lemma slotsNeeded_skip (hl : ∀ k ∈ l, vs' k = vs k)
    (hfar : ∀ u, endAddr ≤ (vs u).start ∨ endAddr ≤ (vs' u).start → vs' u = vs u)
    (h₁ : ¬ (vs i).Straddles start) (h₂ : ¬ (vs i).Straddles endAddr) :
    slotsNeeded l vs' start endAddr newProt = slotsNeeded (i :: l) vs start endAddr newProt := by
  have hhands : ∀ v ∈ l, HandsOver l vs' endAddr newProt v ↔
      HandsOver (i :: l) vs endAddr newProt v := by
    intro v hv
    unfold HandsOver
    rw [List.exists_mem_cons_iff, or_iff_right fun hw => h₂ hw.2.1]
    refine exists_congr fun w => and_congr_right fun hw => ?_
    rw [hl w hw, hl v hv]
    refine and_congr_right fun _ => and_congr_right fun hst => and_congr_right fun _ =>
      exists_congr fun u => and_congr_right fun _ => ?_
    constructor
    · rintro ⟨hk, hu⟩
      rw [hfar u (Or.inr (hu ▸ hst.2.2.le))] at hk hu
      exact ⟨hk, hu⟩
    · rintro ⟨hk, hu⟩
      rw [hfar u (Or.inl (hu ▸ hst.2.2.le))]
      exact ⟨hk, hu⟩
  refine slotsNeeded_congr ?_ ?_
  · unfold NeedsLeft
    rw [List.exists_mem_cons_iff, or_iff_right fun hv => h₁ hv.1]
    refine exists_congr fun v => and_congr_right fun hv => ?_
    rw [hhands v hv, hl v hv, neighbour_congr le_rfl hfar]
  · unfold NeedsRight
    rw [List.exists_mem_cons_iff, or_iff_right fun hw => h₂ hw.1]
    refine exists_congr fun w => and_congr_right fun hw => ?_
    rw [hl w hw]
    exact and_congr_right fun hst => by rw [neighbour_congr hst.2.2.le hfar]

section Turns

variable (h : Protecting (i :: l) vs start endAddr newProt) (hil : ∀ k ∈ l, i < k)

include h

lemma Protecting.skip (hmeets : (vs i).meets start endAddr = false) (hlt : start < endAddr) :
    Protecting l vs start endAddr newProt ∧
      slotsNeeded l vs start endAddr newProt = slotsNeeded (i :: l) vs start endAddr newProt := by
  rw [Bool.eq_false_iff, Ne, VmArea.meets_iff] at hmeets
  refine ⟨⟨h.solid, fun v hv => h.left v (List.mem_cons_of_mem _ hv),
    fun w hw => h.right w (List.mem_cons_of_mem _ hw)⟩,
    slotsNeeded_skip (fun _ _ => rfl) (fun _ _ => rfl) ?_ ?_⟩
  · rintro ⟨hu, h₁, h₂⟩
    exact hmeets ⟨hu, h₂, h₁.trans hlt⟩
  · rintro ⟨hu, h₁, h₂⟩
    exact hmeets ⟨hu, hlt.trans h₂, h₁⟩

include hil

lemma turnCounts_inside (hmeets : (vs i).meets start endAddr = true)
    (hin : start ≤ (vs i).start ∧ (vs i).endAddr ≤ endAddr) :
    TurnCounts i l vs start endAddr newProt true
      (Function.update vs i { vs i with prot := newProt }) := by
  obtain ⟨hu, h₁, h₂⟩ := VmArea.meets_iff.mp hmeets
  have hlater : ∀ k ∈ l, Function.update vs i { vs i with prot := newProt } k = vs k :=
    fun k hk => Function.update_of_ne (hil k hk).ne' ..
  refine ⟨0, Nat.zero_le _, by simp, fun _ => ⟨freeSlots_update rfl, ⟨?_, ?_, ?_⟩, ?_⟩⟩
  · exact h.solid.update fun _ => h.solid i hu
  · intro v hv hst
    rw [hlater v hv] at hst
    have hd := h.left v (List.mem_cons_of_mem _ hv) hst
    exact hd.shrink hu (hd.nonempty i hu) le_rfl le_rfl
  · intro w hw hst hprot k hkw hk
    rw [hlater w hw] at hst hprot ⊢
    by_cases hki : k = i
    · subst hki
      rw [Function.update_self]
      exact Or.inr ⟨rfl, hin.2⟩
    · rw [Function.update_of_ne hki] at hk ⊢
      exact h.right w (List.mem_cons_of_mem _ hw) hst hprot k hkw hk
  · refine slotsNeeded_skip hlater (fun u hu => Function.update_of_ne ?_ ..) ?_ ?_
    · rintro rfl
      rw [Function.update_self] at hu
      rcases hu with hu | hu <;> exact absurd h₂ (not_lt.mpr hu)
    · exact fun hst => absurd hst.2.1 (not_lt.mpr hin.1)
    · exact fun hst => absurd hst.2.2 (not_lt.mpr hin.2)

end Turns

lemma Protecting.eq_of_right (h : Protecting (i :: l) vs start endAddr newProt)
    (hst : (vs i).Straddles endAddr) (hk : k ∈ i :: l) (hks : (vs k).Straddles endAddr)
    (hprot : (vs k).prot ≠ newProt) : k = i := by
  by_contra hki
  have hap := h.right k hk hks hprot i (Ne.symm hki) hst.1
  obtain ⟨-, h₁, h₂⟩ := hst
  obtain ⟨-, h₃, h₄⟩ := hks
  simp only [Span.Apart, VmArea.span] at hap
  omega

section Behind

variable (hm : Made (Function.update vs i { vs i with endAddr := endAddr, prot := newProt })
  endAddr (vs i).endAddr (vs i).prot (vs i).flags vs')

include hm

lemma behind_slot (hki : k ≠ i) : vs' k = vs k ∨ (vs' k).start = endAddr ∨
    (vs k).Kind (vs i).prot (vs i).flags ∧ (vs k).endAddr = endAddr ∧
      vs' k = { vs k with endAddr := (vs i).endAddr } := by
  have hcases := hm.slot_cases k
  rw [Function.update_of_ne hki] at hcases
  rcases hcases with hk | hk | ⟨-, -, hk, -⟩ | ⟨-, hk, -⟩
  · exact Or.inl hk
  · exact Or.inr (Or.inr hk)
  · exact Or.inr (Or.inl (by rw [hk]))
  · exact Or.inr (Or.inl (by rw [hk]))

variable (hst : (vs i).Straddles endAddr)

include hst

lemma behind_self : (vs' i).start = (vs i).start := by
  have hcases := hm.slot_cases i
  rw [Function.update_self] at hcases
  rcases hcases with hi | ⟨-, -, hi⟩ | ⟨-, hs, -⟩ | ⟨hu, -⟩
  · rw [hi]
  · rw [hi]
  · exact absurd (hs ▸ hst.2.1.trans hst.2.2) (lt_irrefl _)
  · exact absurd (hst.1.symm.trans hu) (by simp)

variable (hd : VmasDisjoint vs)

include hd

lemma behind_slot_disjoint (hki : k ≠ i) : vs' k = vs k ∨ (vs' k).start = endAddr := by
  rcases behind_slot hm hki with hk | hk | ⟨hkind, hend, -⟩
  · exact Or.inl hk
  · exact Or.inr hk
  · exact absurd hend (hd.endAddr_ne hst hki hkind.1)

/-- The areas that begin at the end of the range afterwards: the area behind area `i`, when it
comes first among those that the piece can be joined to. -/
lemma neighbour_behind : Neighbour vs' endAddr newProt f ↔
    (vs i).Kind newProt f ∧
      ∃ u, u < i ∧ (vs u).Kind newProt f ∧ (vs u).start = (vs i).endAddr := by
  have hkept : (vs i).prot = newProt →
      (Function.update vs i { vs i with endAddr := endAddr, prot := newProt } i).joins
        endAddr (vs i).endAddr (vs i).prot (vs i).flags = true := fun hp => by
    rw [Function.update_self]
    exact VmArea.joins_iff.mpr ⟨⟨hst.1, hp.symm, rfl⟩, by simp⟩
  constructor
  · rintro ⟨k, hkind, hstart⟩
    have hki : k ≠ i := by
      rintro rfl
      rw [behind_self hm hst] at hstart
      exact absurd hstart hst.2.1.ne
    have hcases := hm.slot_cases k
    rw [Function.update_of_ne hki] at hcases
    rcases hcases with hk | ⟨hk', hend, hk⟩ | ⟨⟨hku, hq, hf⟩, hs, hk, hfirst⟩ | ⟨-, hk, hno⟩
    · rw [hk] at hkind hstart
      exact absurd hstart (hd.start_ne hst hkind.1)
    · rw [hk] at hstart
      have := hd.nonempty k hk'.1
      dsimp only at hstart
      omega
    · rw [hk] at hkind
      obtain ⟨-, rfl, rfl⟩ := hkind
      refine ⟨⟨hst.1, hq.symm, hf.symm⟩, k, ?_, ⟨hku, rfl, rfl⟩, hs⟩
      by_contra hik
      have hjoin := hfirst i (lt_of_le_of_ne (not_lt.mp hik) (Ne.symm hki))
      exact absurd (hjoin.symm.trans (hkept hq.symm)) (by simp)
    · rw [hk] at hkind
      exact absurd ((hno i).symm.trans (hkept hkind.2.1)) (by simp)
  · rintro ⟨⟨-, hp, hf⟩, u, hui, hukind, hustart⟩
    have hu : (Function.update vs i { vs i with endAddr := endAddr, prot := newProt } u).joins
        endAddr (vs i).endAddr (vs i).prot (vs i).flags = true := by
      rw [Function.update_of_ne hui.ne]
      exact VmArea.joins_iff.mpr ⟨by rwa [hp, hf], by simp [hustart]⟩
    cases hm with
    | inside k hk hs he =>
      -- area `i` reaches to the end of the range only, and no other contains that address
      by_cases hki : k = i
      · subst hki
        rw [Function.update_self] at he
        exact absurd hst.2.2 (not_lt.mpr he)
      · rw [Function.update_of_ne hki] at hk hs he
        exact absurd (hd.eq_of_has (x := endAddr) hk.1 hst.1 ⟨hs, hst.2.2.trans_le he⟩
          ⟨hst.2.1.le, hst.2.2⟩) hki
    | right k hk he hfirst =>
      -- only area `i` ends with the range, and area `u` comes before it
      have hki : k ≠ i := by
        rintro rfl
        exact absurd ((hfirst u hui).symm.trans hu) (by simp)
      rw [Function.update_of_ne hki] at hk he
      exact absurd he (hd.endAddr_ne hst hki hk.1)
    | left k hk hs hfirst =>
      have hki : k ≠ i := by
        rintro rfl
        rw [Function.update_self] at hs
        exact absurd hs (hst.2.1.trans hst.2.2).ne
      refine ⟨k, ?_, by rw [Function.update_self]⟩
      rw [Function.update_of_ne hki, hp, hf] at hk
      rwa [Function.update_self, Function.update_of_ne hki]
    | fresh k hk hno => exact absurd ((hno u).symm.trans hu) (by simp)

end Behind

section BehindTurn

variable (h : Protecting (i :: l) vs start endAddr newProt) (hil : ∀ k ∈ l, i < k)
  (hst : (vs i).Straddles endAddr)

include h hst

lemma needsRight_behind : NeedsRight (i :: l) vs endAddr newProt ↔
    (vs i).prot ≠ newProt ∧ ¬ Neighbour vs (vs i).endAddr (vs i).prot (vs i).flags := by
  constructor
  · rintro ⟨w, hw, hws, hprot, hn⟩
    obtain rfl := h.eq_of_right hst hw hws hprot
    exact ⟨hprot, hn⟩
  · rintro ⟨hprot, hn⟩
    exact ⟨i, List.mem_cons_self, hst, hprot, hn⟩

lemma slotsFor_behind_turn :
    slotsFor (Function.update vs i { vs i with endAddr := endAddr, prot := newProt })
      endAddr (vs i).endAddr (vs i).prot (vs i).flags =
      if NeedsRight (i :: l) vs endAddr newProt then 1 else 0 := by
  rw [if_congr (needsRight_behind h hst) rfl rfl]
  by_cases hp : (vs i).prot = newProt
  · have hjoin : ∃ k, (Function.update vs i
        { vs i with endAddr := endAddr, prot := newProt } k).joins endAddr (vs i).endAddr
          (vs i).prot (vs i).flags = true :=
      ⟨i, by rw [Function.update_self]; exact VmArea.joins_iff.mpr ⟨⟨hst.1, hp.symm, rfl⟩, by simp⟩⟩
    rw [slotsFor, if_pos hjoin, if_neg (fun hc => hc.1 hp)]
  · have hkept : VmArea.joins { vs i with endAddr := endAddr, prot := newProt } endAddr
        (vs i).endAddr (vs i).prot (vs i).flags = false := by
      rw [Bool.eq_false_iff, Ne, VmArea.joins_iff]
      exact fun hj => hp hj.1.2.1.symm
    rw [slotsFor_behind h.solid hst ?_ hkept]
    · simp [hp]
    · intro k hki hkind
      refine (h.right i List.mem_cons_self hst hp k hki hkind.1).resolve_right fun hk => ?_
      exact hp (hkind.2.1.symm.trans hk.1)

include hil

variable (hlo : start ≤ (vs i).start) (hlt : start < endAddr)
  (hm : Made (Function.update vs i { vs i with endAddr := endAddr, prot := newProt })
    endAddr (vs i).endAddr (vs i).prot (vs i).flags vs')

include hm

lemma behind_right (hk : k ∈ l) (hks : (vs' k).Straddles endAddr) : (vs' k).prot = newProt := by
  have hki := (hil k hk).ne'
  by_contra hprot
  rcases behind_slot hm hki with hsame | hstart | ⟨hkind, hend, hjoined⟩
  · rw [hsame] at hks hprot
    exact hki (h.eq_of_right hst (List.mem_cons_of_mem _ hk) hks hprot)
  · exact absurd hks.2.1 hstart.not_lt
  · rw [hjoined] at hprot
    have hpi : (vs i).prot ≠ newProt := fun hp => hprot (hkind.2.1.trans hp)
    have hap := (h.right i List.mem_cons_self hst hpi k hki hkind.1).resolve_right fun hc =>
      hprot hc.1
    have hne := h.solid k hkind.1
    obtain ⟨-, h₁, h₂⟩ := hst
    simp only [Span.Apart, VmArea.span] at hap
    omega

include hlt in
lemma behind_left (hk : k ∈ l) (hks : (vs' k).Straddles start ∨ (vs k).Straddles start) :
    vs' k = vs k ∧ VmasDisjoint vs := by
  have hki := (hil k hk).ne'
  have hcases := hm.slot_cases k
  rw [Function.update_of_ne hki] at hcases
  -- an area that ends with the range would reach over its start in the old table too
  have hright : (vs k).Straddles start → (vs k).endAddr ≠ endAddr := fun hks =>
    (h.left k (List.mem_cons_of_mem _ hk) hks).endAddr_ne hst hki hks.1
  rcases hcases with hsame | ⟨hkind, hend, hjoin⟩ | ⟨-, hs, hjoin, -⟩ | ⟨hu, hjoin, -⟩
  · rw [hsame, or_self] at hks
    exact ⟨hsame, h.left k (List.mem_cons_of_mem _ hk) hks⟩
  · have hold : (vs k).Straddles start := by
      refine hks.elim (fun hks => ?_) id
      rw [hjoin] at hks
      exact ⟨hkind.1, hks.2.1, hend ▸ hlt⟩
    exact absurd hend (hright hold)
  · exfalso
    obtain ⟨-, h₁, h₂⟩ := hst
    rcases hks with ⟨-, h₃, -⟩ | ⟨-, h₃, -⟩
    · rw [hjoin] at h₃
      exact absurd (hlt.trans h₃) (lt_irrefl _)
    · omega
  · exfalso
    rcases hks with ⟨-, h₃, -⟩ | ⟨hu', -⟩
    · rw [hjoin] at h₃
      exact absurd (hlt.trans h₃) (lt_irrefl _)
    · exact absurd (hu'.symm.trans hu) (by simp)

include hlt hlo in
lemma needsLeft_behind : NeedsLeft l vs' start endAddr newProt ↔
    NeedsLeft (i :: l) vs start endAddr newProt := by
  unfold NeedsLeft
  rw [List.exists_mem_cons_iff, or_iff_right fun hv => absurd hv.1.2.1 (not_lt.mpr hlo)]
  refine exists_congr fun v => and_congr_right fun hv => ?_
  by_cases hvs : (vs' v).Straddles start ∨ (vs v).Straddles start
  · obtain ⟨hsame, hd⟩ := behind_left h hil hst hlt hm hv hvs
    -- area `i` straddles the end of the range, so none begins there yet, and it is the one to
    -- hand over
    have hnone : ¬ Neighbour vs endAddr newProt (vs v).flags :=
      fun ⟨u, hu, hs⟩ => hd.start_ne hst hu.1 hs
    have hdone : ¬ HandsOver l vs' endAddr newProt v := by
      rintro ⟨w, hw, -, hws, -⟩
      have hwi := (hil w hw).ne'
      rcases behind_slot_disjoint hm hst hd hwi with hk | hk
      · rw [hk] at hws
        exact hwi (hd.eq_of_straddles hws hst)
      · exact absurd hws.2.1 hk.not_lt
    have hover : HandsOver (i :: l) vs endAddr newProt v ↔
        (vs i).Kind newProt (vs v).flags ∧ ∃ u, u < i ∧ (vs u).Kind newProt (vs v).flags ∧
          (vs u).start = (vs i).endAddr := by
      constructor
      · rintro ⟨w, -, -, hws, hrest⟩
        obtain rfl := hd.eq_of_straddles hws hst
        exact hrest
      · rintro hrest
        exact ⟨i, List.mem_cons_self, hil v hv, hst, hrest⟩
    rw [hsame, neighbour_behind hm hst hd, hover]
    simp [hnone, hdone]
  · rw [not_or] at hvs
    exact iff_of_false (fun hc => hvs.1 hc.1) fun hc => hvs.2 hc.1

end BehindTurn

lemma turnCounts_behind (h : Protecting (i :: l) vs start endAddr newProt)
    (hil : ∀ k ∈ l, i < k) (hst : (vs i).Straddles endAddr) (hlo : start ≤ (vs i).start)
    (hlt : start < endAddr) (hv : v = { vs i with endAddr := endAddr, prot := newProt }) :
    TurnCounts i l vs start endAddr newProt
      (vmaCreate (Function.update vs i v) endAddr (vs i).endAddr (vs i).prot (vs i).flags).1.isSome
      (vmaCreate (Function.update vs i v) endAddr (vs i).endAddr (vs i).prot (vs i).flags).2 := by
  have hslots := slotsFor_behind_turn h hst
  rw [← hv] at hslots
  have hfree : freeSlots (Function.update vs i v) = freeSlots vs := freeSlots_update (by rw [hv])
  refine ⟨_, Nat.le_add_left _ _, ?_, fun hmade => ?_⟩
  · rw [vmaCreate_isSome _ _ _ hst.2.2, hslots, hfree]
  · have hm := vmaCreate_made hst.2.2 hmade
    have hcount := hm.freeSlots
    have hsolid : Solid (Function.update vs i v) := h.solid.update fun _ => by
      rw [hv]
      exact hst.2.1
    have hsolid' := hm.solid hst.2.2 hsolid
    rw [hslots, hfree] at hcount
    generalize (vmaCreate (Function.update vs i v) endAddr (vs i).endAddr (vs i).prot
      (vs i).flags).2 = vs' at hm hcount hsolid' ⊢
    subst hv
    refine ⟨hcount, ⟨hsolid', fun k hk hks => ?_, fun w hw hws hprot => ?_⟩, ?_⟩
    · have hd := (behind_left h hil hst hlt hm hk (Or.inl hks)).2
      exact hm.grown.disjoint (hd.shrink hst.1 hst.2.1 le_rfl hst.2.2.le) hst.2.2
        (hd.apart_cut hst.1 hst.2.1.le le_rfl (Or.inr le_rfl))
    · exact absurd (behind_right h hil hst hm hw hws) hprot
    · have hdone : ¬ NeedsRight l vs' endAddr newProt := by
        rintro ⟨w, hw, hws, hprot, -⟩
        exact hprot (behind_right h hil hst hm hw hws)
      simp only [slotsNeeded, needsLeft_behind h hil hst hlo hlt hm, if_neg hdone, Nat.add_zero]

section Front

variable (hd : VmasDisjoint vs) (hst : (vs i).Straddles start) (hlt : start < endAddr)

include hd hst hlt

/-- The part of the range in area `i` can be joined to area `i` itself when it has the new
protection already, and to an area that begins at the end of the range. -/
lemma joins_front : (∃ k, (Function.update vs i { vs i with endAddr := start } k).joins
      start endAddr newProt (vs i).flags = true) ↔
    (vs i).prot = newProt ∨ Neighbour vs endAddr newProt (vs i).flags := by
  constructor
  · rintro ⟨k, hk⟩
    obtain ⟨hkind, hcase⟩ := VmArea.joins_iff.mp hk
    by_cases hki : k = i
    · subst hki
      rw [Function.update_self] at hkind
      exact Or.inl hkind.2.1
    · rw [Function.update_of_ne hki] at hkind hcase
      rcases hcase with ⟨h₁, h₂⟩ | hend | hstart
      · exact absurd (hd.eq_of_has (x := start) hkind.1 hst.1 ⟨h₁, hlt.trans_le h₂⟩
          ⟨hst.2.1.le, hst.2.2⟩) hki
      · exact absurd hend (hd.endAddr_ne hst hki hkind.1)
      · exact Or.inr ⟨k, hkind, hstart⟩
  · rintro (hp | ⟨u, hkind, hstart⟩)
    · refine ⟨i, ?_⟩
      rw [Function.update_self]
      exact VmArea.joins_iff.mpr ⟨⟨hst.1, hp, rfl⟩, by simp⟩
    · have hui : u ≠ i := by
        rintro rfl
        exact absurd (hst.2.1.trans hlt) hstart.not_lt
      refine ⟨u, ?_⟩
      rw [Function.update_of_ne hui]
      exact VmArea.joins_iff.mpr ⟨hkind, by simp [hstart]⟩

variable (hm : Made (Function.update vs i { vs i with endAddr := start })
  start endAddr newProt (vs i).flags vs')

include hm

omit hlt in
lemma front_slot (hki : k ≠ i) : vs' k = vs k ∨ (vs' k).start = start ∧ (vs' k).prot = newProt ∧
    ((vs k).used = false ∧ (vs' k).endAddr = endAddr ∨
      (vs k).used = true ∧ (vs k).prot = newProt ∧ (vs k).start = endAddr) := by
  have hcases := hm.slot_cases k
  rw [Function.update_of_ne hki] at hcases
  rcases hcases with hk | ⟨hkind, hend, -⟩ | ⟨hkind, hs, hk, -⟩ | ⟨hu, hk, -⟩
  · exact Or.inl hk
  · exact absurd hend (hd.endAddr_ne hst hki hkind.1)
  · rw [hk]
    exact Or.inr ⟨rfl, hkind.2.1, Or.inr ⟨hkind.1, hkind.2.1, hs⟩⟩
  · rw [hk]
    exact Or.inr ⟨rfl, rfl, Or.inl ⟨hu, rfl⟩⟩

omit hd in
lemma front_self : (vs' i).start = (vs i).start ∧
    ((vs' i).endAddr = start ∨ (vs' i).endAddr = endAddr ∧ (vs' i).prot = newProt) := by
  have hcases := hm.slot_cases i
  rw [Function.update_self] at hcases
  rcases hcases with hi | ⟨hkind, -, hi⟩ | ⟨-, hs, -⟩ | ⟨hu, -⟩
  · rw [hi]
    exact ⟨rfl, Or.inl rfl⟩
  · rw [hi]
    exact ⟨rfl, Or.inr ⟨rfl, hkind.2.1⟩⟩
  · exact absurd (hst.2.1.trans hlt) (not_lt.mpr hs.ge)
  · exact absurd (hst.1.symm.trans hu) (by simp)

omit hlt in
lemma front_left (hki : k ≠ i) : ¬ (vs' k).Straddles start := by
  intro hks
  rcases front_slot hd hst hm hki with hk | ⟨hk, -⟩
  · rw [hk] at hks
    exact hki (hd.eq_of_straddles hks hst)
  · exact absurd hks.2.1 hk.not_lt

end Front

section FrontTurn

variable (h : Protecting (i :: l) vs start endAddr newProt) (hil : ∀ k ∈ l, i < k)
  (hst : (vs i).Straddles start) (hlt : start < endAddr)

include h hil hst

lemma needsLeft_front : NeedsLeft (i :: l) vs start endAddr newProt ↔
    (vs i).prot ≠ newProt ∧ ¬ Neighbour vs endAddr newProt (vs i).flags := by
  have hd := h.left i List.mem_cons_self hst
  -- area `i` is the first to come, so nobody hands over to it
  have hover : ¬ HandsOver (i :: l) vs endAddr newProt i := by
    rintro ⟨w, hw, hwi, -⟩
    rcases List.mem_cons.mp hw with rfl | hw
    · exact lt_irrefl _ hwi
    · exact lt_asymm hwi (hil w hw)
  constructor
  · rintro ⟨v, -, hvs, hprot, hn, -⟩
    obtain rfl := hd.eq_of_straddles hvs hst
    exact ⟨hprot, hn⟩
  · rintro ⟨hprot, hn⟩
    exact ⟨i, List.mem_cons_self, hst, hprot, hn, hover⟩

include hlt

lemma slotsFor_front : slotsFor (Function.update vs i { vs i with endAddr := start })
      start endAddr newProt (vs i).flags =
    if NeedsLeft (i :: l) vs start endAddr newProt then 1 else 0 := by
  rw [if_congr (needsLeft_front h hil hst) rfl rfl, slotsFor,
    if_congr (joins_front (h.left i List.mem_cons_self hst) hst hlt) rfl rfl]
  by_cases hp : (vs i).prot = newProt <;>
    by_cases hn : Neighbour vs endAddr newProt (vs i).flags <;> simp [hp, hn]

variable (hm : Made (Function.update vs i { vs i with endAddr := start })
  start endAddr newProt (vs i).flags vs')

include hm

omit hlt in
/-- An area to come of another protection that reaches over the end of the range is left alone. -/
lemma front_right (hk : k ∈ l) (hks : (vs' k).Straddles endAddr ∧ (vs' k).prot ≠ newProt ∨
    (vs k).Straddles endAddr ∧ (vs k).prot ≠ newProt) : vs' k = vs k := by
  have hd := h.left i List.mem_cons_self hst
  refine (front_slot hd hst hm (hil k hk).ne').resolve_right ?_
  rintro ⟨-, hprot, hold⟩
  rcases hks with hks | hks
  · exact hks.2 hprot
  · rcases hold with ⟨hu, -⟩ | ⟨-, hp, -⟩
    · exact absurd (hks.1.1.symm.trans hu) (by simp)
    · exact hks.2 hp

lemma neighbour_front {a : ℕ} (ha : endAddr < a) (hq : q ≠ newProt) :
    Neighbour vs' a q f ↔ Neighbour vs a q f := by
  have hd := h.left i List.mem_cons_self hst
  have hi : (vs i).start < a := (hst.2.1.trans hlt).trans ha
  refine exists_congr fun u => ?_
  by_cases hui : u = i
  · subst hui
    refine iff_of_false (fun hc => ?_) fun hc => absurd hc.2 hi.ne
    rw [(front_self hst hlt hm).1] at hc
    exact absurd hc.2 hi.ne
  rcases front_slot hd hst hm hui with hu | ⟨-, hprot, hold⟩
  · rw [hu]
  · refine iff_of_false (fun hc => hq (hc.1.2.1.symm.trans hprot)) fun hc => ?_
    rcases hold with ⟨hu, -⟩ | ⟨-, hp, -⟩
    · exact absurd (hc.1.1.symm.trans hu) (by simp)
    · exact hq (hc.1.2.1.symm.trans hp)

lemma needsRight_front (hhi : (vs i).endAddr ≤ endAddr) :
    NeedsRight l vs' endAddr newProt ↔ NeedsRight (i :: l) vs endAddr newProt := by
  unfold NeedsRight
  rw [List.exists_mem_cons_iff, or_iff_right fun hw => absurd hw.1.2.2 (not_lt.mpr hhi)]
  refine exists_congr fun w => and_congr_right fun hw => ?_
  by_cases hws : (vs' w).Straddles endAddr ∧ (vs' w).prot ≠ newProt ∨
      (vs w).Straddles endAddr ∧ (vs w).prot ≠ newProt
  · rw [front_right h hil hst hm hw hws]
    exact and_congr_right fun hs => and_congr_right fun hp => by
      rw [neighbour_front h hil hst hlt hm hs.2.2 hp]
  · rw [not_or] at hws
    exact iff_of_false (fun hc => hws.1 ⟨hc.1, hc.2.1⟩) fun hc => hws.2 ⟨hc.1, hc.2.1⟩

/-- What the invariant says of the areas over the end of the range, after the part of the range
in area `i` has been made. -/
lemma protecting_front (hhi : (vs i).endAddr ≤ endAddr) (hsolid : Solid vs') :
    Protecting l vs' start endAddr newProt where
  solid := hsolid
  left k hk hks := by
    exact absurd hks (front_left (h.left i List.mem_cons_self hst) hst hm (hil k hk).ne')
  right w hw hws hprot k hkw hk := by
    have hd := h.left i List.mem_cons_self hst
    have hwi := (hil w hw).ne'
    have hsame := front_right h hil hst hm hw (Or.inl ⟨hws, hprot⟩)
    rw [hsame] at hws hprot ⊢
    by_cases hki : k = i
    · subst hki
      obtain ⟨hs, he | ⟨he, hp⟩⟩ := front_self hst hlt hm
      · refine Or.inl ((hd.apart k w hkw hst.1 hws.1).mono ?_ ?_)
        · exact hs.ge
        · exact he.trans_le hst.2.2.le
      · exact Or.inr ⟨hp, he.le⟩
    rcases front_slot hd hst hm hki with hk' | ⟨-, hp, ⟨-, he⟩ | ⟨hu, -, hs⟩⟩
    · rw [hk'] at hk ⊢
      exact Or.inl (hd.apart k w hkw hk hws.1)
    · exact Or.inr ⟨hp, he.le⟩
    · exact absurd hs (hd.start_ne hws hu)

end FrontTurn

lemma turnCounts_front (h : Protecting (i :: l) vs start endAddr newProt)
    (hil : ∀ k ∈ l, i < k) (hst : (vs i).Straddles start) (hhi : (vs i).endAddr ≤ endAddr)
    (hlt : start < endAddr) (hv : v = { vs i with endAddr := start }) :
    TurnCounts i l vs start endAddr newProt
      (vmaCreate (Function.update vs i v) start endAddr newProt (vs i).flags).1.isSome
      (vmaCreate (Function.update vs i v) start endAddr newProt (vs i).flags).2 := by
  have hslots := slotsFor_front h hil hst hlt
  rw [← hv] at hslots
  have hfree : freeSlots (Function.update vs i v) = freeSlots vs := freeSlots_update (by rw [hv])
  refine ⟨_, Nat.le_add_right _ _, ?_, fun hmade => ?_⟩
  · rw [vmaCreate_isSome _ _ _ hlt, hslots, hfree]
  · have hm := vmaCreate_made hlt hmade
    have hcount := hm.freeSlots
    have hsolid : Solid (Function.update vs i v) := h.solid.update fun _ => by
      rw [hv]
      exact hst.2.1
    have hsolid' := hm.solid hlt hsolid
    rw [hslots, hfree] at hcount
    generalize (vmaCreate (Function.update vs i v) start endAddr newProt (vs i).flags).2 = vs'
      at hm hcount hsolid' ⊢
    subst hv
    refine ⟨hcount, protecting_front h hil hst hlt hm hhi hsolid', ?_⟩
    have hdone : ¬ NeedsLeft l vs' start endAddr newProt := by
      rintro ⟨k, hk, hks, -⟩
      exact front_left (h.left i List.mem_cons_self hst) hst hm (hil k hk).ne' hks
    simp only [slotsNeeded, needsRight_front h hil hst hlt hm hhi, if_neg hdone, Nat.zero_add]
    exact Nat.add_comm ..

section AroundTurn

variable (h : Protecting (i :: l) vs start endAddr newProt) (hil : ∀ k ∈ l, i < k)
  (hin : (vs i).Around start endAddr) (hlt : start < endAddr)
  (hm : Made (Function.update vs i { vs i with endAddr := start })
    start endAddr newProt (vs i).flags vs')

include h hin hlt hm

lemma around_self (hp : (vs i).prot = newProt) :
    (vs' i).Kind newProt (vs i).flags ∧ (vs' i).endAddr = endAddr := by
  have hfront : (vs i).Straddles start := ⟨hin.1, hin.2.1, hlt.trans hin.2.2⟩
  have hback : (vs i).Straddles endAddr := ⟨hin.1, hin.2.1.trans hlt, hin.2.2⟩
  have hd := h.left i List.mem_cons_self hfront
  cases hm with
  | inside k hk hs he =>
    by_cases hki : k = i
    · subst hki
      rw [Function.update_self] at he
      exact absurd hlt (not_lt.mpr he)
    · rw [Function.update_of_ne hki] at hk hs he
      exact absurd (hd.eq_of_has (x := start) hk.1 hin.1 ⟨hs, hlt.trans_le he⟩
        ⟨hin.2.1.le, hfront.2.2⟩) hki
  | right k hk he _ =>
    by_cases hki : k = i
    · subst hki
      rw [Function.update_self, Function.update_self]
      exact ⟨⟨hin.1, hp, rfl⟩, rfl⟩
    · rw [Function.update_of_ne hki] at hk he
      exact absurd he (hd.endAddr_ne hfront hki hk.1)
  | left k hk hs _ =>
    by_cases hki : k = i
    · subst hki
      rw [Function.update_self] at hs
      exact absurd hs hback.2.1.ne
    · rw [Function.update_of_ne hki] at hk hs
      exact absurd hs (hd.start_ne hback hk.1)
  | fresh k hk hno =>
    have hno := hno i
    rw [Function.update_self, Bool.eq_false_iff, Ne, VmArea.joins_iff] at hno
    exact absurd ⟨⟨hin.1, hp, rfl⟩, by simp⟩ hno

/-- The part of area `i` behind the range needs a slot, after the part in the range has been
made, when it would need one by itself. -/
lemma slotsFor_around : slotsFor vs' endAddr (vs i).endAddr (vs i).prot (vs i).flags =
    if NeedsRight (i :: l) vs endAddr newProt then 1 else 0 := by
  have hfront : (vs i).Straddles start := ⟨hin.1, hin.2.1, hlt.trans hin.2.2⟩
  have hback : (vs i).Straddles endAddr := ⟨hin.1, hin.2.1.trans hlt, hin.2.2⟩
  have hd := h.left i List.mem_cons_self hfront
  rw [if_congr (needsRight_behind h hback) rfl rfl, slotsFor]
  by_cases hp : (vs i).prot = newProt
  · -- the part in the range has been joined to area `i`, and so will be the part behind it
    obtain ⟨hkind, hend⟩ := around_self h hin hlt hm hp
    have hjoin : ∃ k, (vs' k).joins endAddr (vs i).endAddr (vs i).prot (vs i).flags = true :=
      ⟨i, VmArea.joins_iff.mpr ⟨by rwa [hp], by simp [hend]⟩⟩
    rw [if_pos hjoin, if_neg fun hc => hc.1 hp]
  · have hjoin : (∃ k, (vs' k).joins endAddr (vs i).endAddr (vs i).prot (vs i).flags = true) ↔
        Neighbour vs (vs i).endAddr (vs i).prot (vs i).flags := by
      constructor
      · rintro ⟨k, hk⟩
        obtain ⟨hkind, hcase⟩ := VmArea.joins_iff.mp hk
        by_cases hki : k = i
        · subst hki
          obtain ⟨hs, he | ⟨-, hp'⟩⟩ := front_self hfront hlt hm
          · have := hin.2
            omega
          · exact absurd (hkind.2.1.symm.trans hp') hp
        rcases front_slot hd hfront hm hki with hsame | ⟨-, hp', -⟩
        · rw [hsame] at hkind hcase
          rcases hcase with ⟨h₁, h₂⟩ | he | hs
          · exact absurd (hd.eq_of_has (x := endAddr) hkind.1 hin.1 ⟨h₁, hin.2.2.trans_le h₂⟩
              ⟨hback.2.1.le, hin.2.2⟩) hki
          · exact absurd he (hd.endAddr_ne hback hki hkind.1)
          · exact ⟨k, hkind, hs⟩
        · exact absurd (hkind.2.1.symm.trans hp') hp
      · rintro ⟨u, hkind, hs⟩
        have hui : u ≠ i := by
          rintro rfl
          exact absurd (hback.2.1.trans hback.2.2) (not_lt.mpr hs.ge)
        have hsame : vs' u = vs u := by
          refine (front_slot hd hfront hm hui).resolve_right ?_
          rintro ⟨-, -, ⟨hu, -⟩ | ⟨-, hp', -⟩⟩
          · exact absurd (hkind.1.symm.trans hu) (by simp)
          · exact hp (hkind.2.1.symm.trans hp')
        exact ⟨u, by rw [hsame]; exact VmArea.joins_iff.mpr ⟨hkind, by simp [hs]⟩⟩
    rw [if_congr hjoin rfl rfl]
    by_cases hn : Neighbour vs (vs i).endAddr (vs i).prot (vs i).flags <;> simp [hp, hn]

include hil

/-- Afterwards no area to come reaches over the start of the range, and one that reaches over
its end has the new protection. -/
lemma around_slot {vs'' : VmaTable}
    (hm' : Made vs' endAddr (vs i).endAddr (vs i).prot (vs i).flags vs'') (hk : k ∈ l) :
    ¬ (vs'' k).Straddles start ∧ ((vs'' k).Straddles endAddr → (vs'' k).prot = newProt) := by
  have hfront : (vs i).Straddles start := ⟨hin.1, hin.2.1, hlt.trans hin.2.2⟩
  have hback : (vs i).Straddles endAddr := ⟨hin.1, hin.2.1.trans hlt, hin.2.2⟩
  have hd := h.left i List.mem_cons_self hfront
  have hki := (hil k hk).ne'
  have hmid := front_slot hd hfront hm hki
  rcases hm'.slot_cases k with hsame | ⟨hkind, hend, hjoin⟩ | ⟨-, -, hjoin, -⟩ | ⟨-, hjoin, -⟩
  · rw [hsame]
    refine ⟨front_left hd hfront hm hki, fun hks => ?_⟩
    rcases hmid with hold | ⟨-, hprot, -⟩
    · rw [hold] at hks
      exact absurd (hd.eq_of_straddles hks hback) hki
    · exact hprot
  · rcases hmid with hold | ⟨hs, hprot, -⟩
    · rw [hold] at hkind hend
      exact absurd hend (hd.endAddr_ne hback hki hkind.1)
    · rw [hjoin]
      exact ⟨fun hks => absurd hks.2.1 hs.not_lt, fun _ => hprot⟩
  · rw [hjoin]
    exact ⟨fun hks => lt_asymm hlt hks.2.1, fun hks => absurd hks.2.1 (lt_irrefl _)⟩
  · rw [hjoin]
    exact ⟨fun hks => lt_asymm hlt hks.2.1, fun hks => absurd hks.2.1 (lt_irrefl _)⟩

end AroundTurn

lemma turnCounts_around (h : Protecting (i :: l) vs start endAddr newProt)
    (hil : ∀ k ∈ l, i < k) (hin : (vs i).Around start endAddr) (hlt : start < endAddr)
    (hv : v = { vs i with endAddr := start }) :
    TurnCounts i l vs start endAddr newProt
      (createAll (Function.update vs i v) [⟨start, endAddr, newProt, (vs i).flags, true⟩,
        ⟨endAddr, (vs i).endAddr, (vs i).prot, (vs i).flags, true⟩]).1
      (createAll (Function.update vs i v) [⟨start, endAddr, newProt, (vs i).flags, true⟩,
        ⟨endAddr, (vs i).endAddr, (vs i).prot, (vs i).flags, true⟩]).2 := by
  have hfront : (vs i).Straddles start := ⟨hin.1, hin.2.1, hlt.trans hin.2.2⟩
  have hslots := slotsFor_front h hil hfront hlt
  rw [← hv] at hslots
  have hfree : freeSlots (Function.update vs i v) = freeSlots vs := freeSlots_update (by rw [hv])
  have hsolid : Solid (Function.update vs i v) := h.solid.update fun _ => by
    rw [hv]
    exact hin.2.1
  simp only [createAll, Bool.and_true]
  have hsome := vmaCreate_isSome (Function.update vs i v) newProt (vs i).flags hlt
  have hmid : (vmaCreate (Function.update vs i v) start endAddr newProt (vs i).flags).1.isSome = true →
      Made (Function.update vs i v) start endAddr newProt (vs i).flags
        (vmaCreate (Function.update vs i v) start endAddr newProt (vs i).flags).2 :=
    vmaCreate_made hlt
  have hcount := fun hmade => (hmid hmade).freeSlots
  rw [hslots, hfree] at hsome hcount
  generalize vmaCreate (Function.update vs i v) start endAddr newProt (vs i).flags = r
    at hsome hcount hmid ⊢
  have hslots' := fun hmade => slotsFor_around h hin hlt (hv ▸ hmid hmade)
  have hsome' := vmaCreate_isSome r.2 (vs i).prot (vs i).flags hin.2.2
  refine ⟨_, le_rfl, ?_, fun hmade => ?_⟩
  · rw [Bool.and_eq_true, slotsNeeded]
    by_cases hmade : r.1.isSome = true
    · rw [and_iff_right hmade, hsome', hslots' hmade]
      have := hcount hmade
      omega
    · refine iff_of_false (fun hc => hmade hc.1) ?_
      rw [hsome] at hmade
      omega
  · rw [Bool.and_eq_true] at hmade
    have hm' := vmaCreate_made hin.2.2 hmade.2
    have hcount' := hm'.freeSlots
    have hslot := fun k (hk : k ∈ l) => around_slot h hil hin hlt (hv ▸ hmid hmade.1) hm' hk
    have hsolid' := hm'.solid hin.2.2 ((hmid hmade.1).solid hlt hsolid)
    rw [hslots' hmade.1] at hcount'
    refine ⟨?_, ⟨hsolid', fun k hk hks => absurd hks (hslot k hk).1,
      fun w hw hws hprot => absurd ((hslot w hw).2 hws) hprot⟩, ?_⟩
    · have := hcount hmade.1
      rw [slotsNeeded]
      omega
    · have hleft : ¬ NeedsLeft l (vmaCreate r.2 endAddr (vs i).endAddr (vs i).prot (vs i).flags).2
          start endAddr newProt := by
        rintro ⟨k, hk, hks, -⟩
        exact (hslot k hk).1 hks
      have hright : ¬ NeedsRight l (vmaCreate r.2 endAddr (vs i).endAddr (vs i).prot
          (vs i).flags).2 endAddr newProt := by
        rintro ⟨k, hk, hks, hp, -⟩
        exact hp ((hslot k hk).2 hks)
      rw [slotsNeeded, if_neg hleft, if_neg hright, Nat.zero_add]

/-! ## The loop -/

/-- Every turn counts. -/
lemma turnCounts (h : Protecting (i :: l) vs start endAddr newProt) (hil : ∀ k ∈ l, i < k)
    (hmeets : (vs i).meets start endAddr = true) (hlt : start < endAddr) :
    TurnCounts i l vs start endAddr newProt
      (carve vs i (reprotecting start endAddr newProt (vs i))).1
      (carve vs i (reprotecting start endAddr newProt (vs i))).2 := by
  obtain ⟨hu, h₁, h₂⟩ := VmArea.meets_iff.mp hmeets
  unfold reprotecting
  split_ifs with hin hback hfront
  · exact turnCounts_inside h hil hmeets hin
  · simp only [carve, createAll, Bool.and_true]
    exact turnCounts_behind h hil ⟨hu, h₂, hback.2⟩ hback.1 hlt rfl
  · simp only [carve, createAll, Bool.and_true]
    exact turnCounts_front h hil ⟨hu, hfront.1, h₁⟩ hfront.2 hlt rfl
  · exact turnCounts_around h hil ⟨hu, by omega, by omega⟩ hlt rfl

/-- The turns at the slots `l` make every piece when there are as many free slots as they need. -/
lemma protect_made_iff (h : Protecting l vs start endAddr newProt) (hl : l.Pairwise (· < ·))
    (hlt : start < endAddr) :
    (carveAll (reprotecting start endAddr newProt) start endAddr vs l).1 = true ↔
      slotsNeeded l vs start endAddr newProt ≤ freeSlots vs := by
  induction l generalizing vs with
  | nil => simp [carveAll, slotsNeeded, NeedsLeft, NeedsRight]
  | cons i l ih =>
    obtain ⟨hil, hl⟩ := List.pairwise_cons.mp hl
    rw [carveAll]
    by_cases hmeets : (vs i).meets start endAddr = true
    · obtain ⟨c, hc, hmade, hafter⟩ := turnCounts h hil hmeets hlt
      rw [if_pos hmeets, Bool.and_eq_true]
      by_cases hm : (carve vs i (reprotecting start endAddr newProt (vs i))).1 = true
      · obtain ⟨hfree, hnext, hneeded⟩ := hafter hm
        rw [and_iff_right hm, ih hnext hl]
        omega
      · refine iff_of_false (fun hc => hm hc.1) ?_
        rw [hmade] at hm
        omega
    · obtain ⟨hnext, hneeded⟩ := h.skip (Bool.eq_false_iff.mpr hmeets) hlt
      rw [if_neg hmeets, ih hnext hl, hneeded]

/-! ## Exhaustion -/

/-- `vma_create` made every piece that `vma_remove` passed to it. -/
def removeMakes (vs : VmaTable) (start endAddr : ℕ) : Bool :=
  decide (endAddr ≤ start) ||
    (carveAll (cutting start endAddr) start endAddr vs (List.finRange maxProcessVmas)).1

/-- `vma_create` made every piece that `vma_protect` passed to it. -/
def protectMakes (vs : VmaTable) (start endAddr newProt : ℕ) : Bool :=
  decide (endAddr ≤ start) ||
    (carveAll (reprotecting start endAddr newProt) start endAddr vs
      (List.finRange maxProcessVmas)).1

/-- A call on the range that returned `ret` and the table `vs'` reports exhaustion: after 0, what
was mapped outside the range is mapped there as before; and if a piece could not be made, it has
returned a negative value and left the table alone. -/
structure Reports (start endAddr : ℕ) (vs : VmaTable) (made : Bool) (ret : ℤ) (vs' : VmaTable) :
    Prop where
  kept : ret = 0 → ∀ a, ¬(start ≤ a ∧ a < endAddr) → ∀ y, areaMap vs a = some y →
    areaMap vs' a = some y
  refused : made = false → ret < 0 ∧ vs' = vs

/-- `vma_remove` has a slot for what lies behind the range, or no need of one. -/
def RemoveFits (vs : VmaTable) (start endAddr : ℕ) : Prop :=
  endAddr ≤ start ∨ ∀ k, (vs k).Around start endAddr →
    0 < freeSlots vs ∨ Neighbour vs (vs k).endAddr (vs k).prot (vs k).flags

/-- `vma_protect` has the slots for the pieces it splits off. -/
def ProtectFits (vs : VmaTable) (start endAddr newProt : ℕ) : Prop :=
  endAddr ≤ start ∨
    slotsNeeded (List.finRange maxProcessVmas) vs start endAddr newProt ≤ freeSlots vs

instance (vs : VmaTable) (start endAddr : ℕ) : Decidable (RemoveFits vs start endAddr) :=
  inferInstanceAs (Decidable (_ ∨ _))

instance (vs : VmaTable) (start endAddr newProt : ℕ) :
    Decidable (ProtectFits vs start endAddr newProt) := inferInstanceAs (Decidable (_ ∨ _))

lemma Reports.refl {made : Bool} {ret : ℤ} (hret : ret < 0) :
    Reports start endAddr vs made ret vs :=
  ⟨fun hc => absurd hret (hc ▸ lt_irrefl _), fun _ => ⟨hret, rfl⟩⟩

/-- A loop that returns 0 in any case reports exhaustion when there is none. -/
lemma reports_iff_made {g : VmArea → Carving} (hg : Carves g start endAddr)
    (hd : VmasDisjoint vs) :
    Reports start endAddr vs (carveAll g start endAddr vs l).1 0 (carveAll g start endAddr vs l).2 ↔
      (carveAll g start endAddr vs l).1 = true := by
  constructor
  · intro h
    by_contra hmade
    exact absurd (h.refused (Bool.eq_false_iff.mpr hmade)).1 (lt_irrefl _)
  · intro hmade
    refine ⟨fun _ a ha y hy => ?_, fun hc => absurd (hmade.symm.trans hc) (by simp)⟩
    rw [← hy]
    exact hd.areaMap_congr fun q f => carveAll_outside hg hd.nonempty hmade ha

/-- **When the loops over the areas report exhaustion.**  They do when they have the slots that
they need, and otherwise they do not. -/
theorem exhaustion_reported_iff (hd : VmasDisjoint vs) (m : Mem) (start endAddr newProt : ℕ) :
    (Reports start endAddr vs (removeMakes vs start endAddr) (vmaRemove m vs start endAddr).1
        (vmaRemove m vs start endAddr).2.2 ↔ RemoveFits vs start endAddr) ∧
      (Reports start endAddr vs (protectMakes vs start endAddr newProt)
        (vmaProtect m vs start endAddr newProt).1 (vmaProtect m vs start endAddr newProt).2.2 ↔
          ProtectFits vs start endAddr newProt) := by
  by_cases hle : endAddr ≤ start
  · simp only [vmaRemove, vmaProtect, RemoveFits, ProtectFits, hle, if_true, true_or, iff_true]
    exact ⟨Reports.refl (by decide), Reports.refl (by decide)⟩
  have hlt := not_le.mp hle
  have hremove : (vmaRemove m vs start endAddr).1 = 0 := by rw [vmaRemove, if_neg hle]
  have hprotect : (vmaProtect m vs start endAddr newProt).1 = 0 := by rw [vmaProtect, if_neg hle]
  constructor
  · rw [hremove, vmaRemove_carveAll m vs hlt, removeMakes, decide_eq_false hle, Bool.false_or,
      reports_iff_made (cutting_carves start endAddr) hd,
      remove_made_iff hd hlt (List.nodup_finRange _), RemoveFits, or_iff_right hle]
    simp only [List.mem_finRange, forall_const]
  · rw [hprotect, vmaProtect_carveAll m vs newProt hlt, protectMakes, decide_eq_false hle,
      Bool.false_or, reports_iff_made (reprotecting_carves hlt newProt) hd,
      protect_made_iff (protecting_of_disjoint hd) (List.sortedLT_finRange _).pairwise hlt,
      ProtectFits, or_iff_right hle]

/-- A table with all slots in use, each for three pages. -/
def fullTable : VmaTable := fun i => ⟨i * 0x10000, i * 0x10000 + 0x3000, 3, 0x22, true⟩

lemma fullTable_disjoint : VmasDisjoint fullTable where
  nonempty i _ := by
    dsimp only [fullTable]
    omega
  apart i j hij _ _ := by
    have hne : i.val ≠ j.val := fun hc => hij (Fin.ext hc)
    simp only [Span.Apart, VmArea.span, fullTable]
    omega

/-- A whole area of the full table is removed or protected without a slot. -/
theorem exhaustion_reported_whole :
    Reports 0 0x3000 fullTable (removeMakes fullTable 0 0x3000)
        (vmaRemove (mmInit (fun _ => 0) fun _ => false) fullTable 0 0x3000).1
        (vmaRemove (mmInit (fun _ => 0) fun _ => false) fullTable 0 0x3000).2.2 ∧
      Reports 0 0x3000 fullTable (protectMakes fullTable 0 0x3000 1)
        (vmaProtect (mmInit (fun _ => 0) fun _ => false) fullTable 0 0x3000 1).1
        (vmaProtect (mmInit (fun _ => 0) fun _ => false) fullTable 0 0x3000 1).2.2 :=
  have h := exhaustion_reported_iff fullTable_disjoint (mmInit (fun _ => 0) fun _ => false) 0 0x3000 1
  ⟨h.1.mpr (by decide +kernel), h.2.mpr (by decide +kernel)⟩

/-- The middle page of an area of the full table: removing it returns 0 and loses the page behind
it. -/
theorem exhaustion_swallowed :
    ¬ Reports 0x1000 0x2000 fullTable (removeMakes fullTable 0x1000 0x2000)
      (vmaRemove (mmInit (fun _ => 0) fun _ => false) fullTable 0x1000 0x2000).1
      (vmaRemove (mmInit (fun _ => 0) fun _ => false) fullTable 0x1000 0x2000).2.2 := by
  intro h
  have hafter := h.kept rfl 0x2000 (by decide) (3, 0x22) (by decide +kernel)
  rw [vmaRemove_carveAll _ _ (by decide)] at hafter
  exact absurd hafter (by decide +kernel)

end Bangos.Mm
