import Bangos.Mm.AreaPieces

/-!
# The slots that removing a range takes

A piece that cannot be joined to an area in use needs a free slot.  `vma_remove` needs one at
most, for what lies behind a range inside one area.
-/

namespace Bangos.Mm

variable {vs vs' : VmaTable} {start endAddr q f x newProt : ℕ} {i j k : Fin maxProcessVmas}
  {l : List (Fin maxProcessVmas)} {v : VmArea}

/-- The address lies inside the area, not at its start. -/
def VmArea.Straddles (v : VmArea) (x : ℕ) : Prop := v.used = true ∧ v.start < x ∧ x < v.endAddr

instance (v : VmArea) (x : ℕ) : Decidable (v.Straddles x) := inferInstanceAs (Decidable (_ ∧ _))

/-- An area of this kind begins at `a`. -/
def Neighbour (vs : VmaTable) (a q f : ℕ) : Prop := ∃ u, (vs u).Kind q f ∧ (vs u).start = a

instance (vs : VmaTable) (a q f : ℕ) : Decidable (Neighbour vs a q f) :=
  inferInstanceAs (Decidable (∃ _, _))

lemma VmasDisjoint.eq_of_straddles (h : VmasDisjoint vs) (hi : (vs i).Straddles x)
    (hj : (vs j).Straddles x) : i = j :=
  h.eq_of_has hi.1 hj.1 ⟨hi.2.1.le, hi.2.2⟩ ⟨hj.2.1.le, hj.2.2⟩

lemma VmasDisjoint.start_ne (h : VmasDisjoint vs) (hi : (vs i).Straddles x)
    (hk : (vs k).used = true) : (vs k).start ≠ x := by
  intro hs
  have hne := h.nonempty k hk
  obtain ⟨hu, h₁, h₂⟩ := hi
  have hki : k = i := h.eq_of_has (x := x) hk hu ⟨hs.le, hs ▸ hne⟩ ⟨h₁.le, h₂⟩
  subst hki
  exact absurd hs h₁.ne

lemma VmasDisjoint.endAddr_ne (h : VmasDisjoint vs) (hi : (vs i).Straddles x) (hki : k ≠ i)
    (hk : (vs k).used = true) : (vs k).endAddr ≠ x := by
  intro he
  have hne := h.nonempty k hk
  have hap := h.apart k i hki hk hi.1
  obtain ⟨-, h₁, h₂⟩ := hi
  simp only [Span.Apart, VmArea.span] at hap
  omega

/-- When area `i` has been cut down to `v`, a part of it that `v` leaves out is apart from all
areas. -/
lemma VmasDisjoint.apart_cut {s e : ℕ} (h : VmasDisjoint vs) (hi : (vs i).used = true)
    (hs : (vs i).start ≤ s) (he : e ≤ (vs i).endAddr) (hv : Span.Apart ⟨s, e⟩ v.span)
    (j : Fin maxProcessVmas) (hj : (Function.update vs i v j).used = true) :
    Span.Apart ⟨s, e⟩ (Function.update vs i v j).span := by
  by_cases hji : j = i
  · subst hji
    rwa [Function.update_self]
  · rw [Function.update_of_ne hji] at hj ⊢
    exact (h.apart i j (Ne.symm hji) hi hj).mono hs he

/-- What lies behind `endAddr` of area `i` can be joined to an area that begins where area `i`
ends, and to no other. -/
lemma joins_behind (hsolid : Solid vs) (hi : (vs i).Straddles endAddr)
    (hap : ∀ k, k ≠ i → (vs k).Kind q f → (vs k).span.Apart (vs i).span)
    (hv : v.joins endAddr (vs i).endAddr q f = false) :
    (∃ k, (Function.update vs i v k).joins endAddr (vs i).endAddr q f = true) ↔
      Neighbour vs (vs i).endAddr q f := by
  obtain ⟨hu, hlo, hhi⟩ := hi
  constructor
  · rintro ⟨k, hk⟩
    by_cases hki : k = i
    · subst hki
      rw [Function.update_self, hv] at hk
      cases hk
    · rw [Function.update_of_ne hki] at hk
      obtain ⟨hkind, hcase⟩ := VmArea.joins_iff.mp hk
      have hne := hsolid k hkind.1
      have hapart := hap k hki hkind
      simp only [Span.Apart, VmArea.span] at hapart
      exact ⟨k, hkind, by omega⟩
  · rintro ⟨u, hkind, hstart⟩
    have hui : u ≠ i := by
      rintro rfl
      omega
    exact ⟨u, by rw [Function.update_of_ne hui]; exact VmArea.joins_iff.mpr ⟨hkind, by simp [hstart]⟩⟩

lemma slotsFor_behind (hsolid : Solid vs) (hi : (vs i).Straddles endAddr)
    (hap : ∀ k, k ≠ i → (vs k).Kind q f → (vs k).span.Apart (vs i).span)
    (hv : v.joins endAddr (vs i).endAddr q f = false) :
    slotsFor (Function.update vs i v) endAddr (vs i).endAddr q f =
      if Neighbour vs (vs i).endAddr q f then 0 else 1 := by
  unfold slotsFor
  exact if_congr (joins_behind hsolid hi hap hv) rfl rfl

lemma vmaCreate_behind (hsolid : Solid vs) (hi : (vs i).Straddles endAddr)
    (hap : ∀ k, k ≠ i → (vs k).Kind q f → (vs k).span.Apart (vs i).span)
    (hv : v.joins endAddr (vs i).endAddr q f = false) (hu : v.used = true) :
    (vmaCreate (Function.update vs i v) endAddr (vs i).endAddr q f).1.isSome = true ↔
      (if Neighbour vs (vs i).endAddr q f then 0 else 1) ≤ freeSlots vs := by
  rw [vmaCreate_isSome _ _ _ hi.2.2, slotsFor_behind hsolid hi hap hv,
    freeSlots_update (hu.trans hi.1.symm)]

/-! ## `vma_remove` -/

/-- The range lies inside the area and reaches neither of its ends. -/
def VmArea.Around (v : VmArea) (start endAddr : ℕ) : Prop :=
  v.used = true ∧ v.start < start ∧ endAddr < v.endAddr

instance (v : VmArea) (start endAddr : ℕ) : Decidable (v.Around start endAddr) :=
  inferInstanceAs (Decidable (_ ∧ _))

lemma cutting_pieces (hmeets : v.meets start endAddr = true) (h : ¬ v.Around start endAddr) :
    (cutting start endAddr v).pieces = [] := by
  obtain ⟨hu, h₁, h₂⟩ := VmArea.meets_iff.mp hmeets
  simp only [VmArea.Around, hu, true_and] at h
  unfold cutting
  split_ifs
  · rfl
  · rfl
  · rfl
  · omega

lemma cutting_around (h : v.Around start endAddr) : cutting start endAddr v =
    ⟨{ v with endAddr := start }, [⟨endAddr, v.endAddr, v.prot, v.flags, true⟩]⟩ := by
  obtain ⟨-, h₁, h₂⟩ := h
  unfold cutting
  rw [if_neg (by omega), if_neg (by omega), if_neg (by omega)]

lemma VmArea.Around.meets (h : v.Around start endAddr) (hlt : start < endAddr) :
    v.meets start endAddr = true :=
  VmArea.meets_iff.mpr ⟨h.1, hlt.trans h.2.2, h.2.1.trans hlt⟩

lemma remove_made_of_not_around (hnodup : l.Nodup)
    (hno : ∀ k ∈ l, ¬ (vs k).Around start endAddr) :
    (carveAll (cutting start endAddr) start endAddr vs l).1 = true := by
  induction l generalizing vs with
  | nil => rfl
  | cons i l ih =>
    obtain ⟨hil, hnodup⟩ := List.nodup_cons.mp hnodup
    rw [carveAll]
    split_ifs with hmeets
    · rw [carve, cutting_pieces hmeets (hno i List.mem_cons_self), Bool.and_eq_true]
      refine ⟨rfl, ih hnodup fun k hk => ?_⟩
      show ¬ (Function.update vs i _ k).Around start endAddr
      rw [Function.update_of_ne (ne_of_mem_of_not_mem hk hil)]
      exact hno k (List.mem_cons_of_mem _ hk)
    · exact ih hnodup fun k hk => hno k (List.mem_cons_of_mem _ hk)

lemma VmasDisjoint.eq_of_around (h : VmasDisjoint vs) (hi : (vs i).Around start endAddr)
    (hj : (vs j).meets start endAddr = true) : j = i := by
  obtain ⟨hu, h₁, h₂⟩ := VmArea.meets_iff.mp hj
  by_contra hji
  have hap := h.apart j i hji hu hi.1
  have := hi.2
  simp only [Span.Apart, VmArea.span] at hap
  omega

lemma Made.not_around (hd : VmasDisjoint vs) (hi : (vs i).Around start endAddr)
    (hlt : start < endAddr) (hki : k ≠ i)
    (hm : Made (Function.update vs i { vs i with endAddr := start }) endAddr (vs i).endAddr q f vs') :
    ¬ (vs' k).Around start endAddr := by
  have hold : ¬ (vs k).Around start endAddr := fun hk => hki (hd.eq_of_around hi (hk.meets hlt))
  have hcases := hm.slot_cases k
  rw [Function.update_of_ne hki] at hcases
  rcases hcases with hk | ⟨hkind, hend, -⟩ | ⟨-, -, hk, -⟩ | ⟨-, hk, -⟩
  · rwa [hk]
  · -- an area that ends with the range would share its last address with area `i`
    exact absurd hend (hd.endAddr_ne ⟨hi.1, hi.2.1.trans hlt, hi.2.2⟩ hki hkind.1)
  · rw [hk]
    exact fun h => absurd (h.2.1.trans hlt) (lt_irrefl _)
  · rw [hk]
    exact fun h => absurd (h.2.1.trans hlt) (lt_irrefl _)

/-- `vma_remove` needs a slot when the range lies inside an area, unless an area of the same kind
begins where that area ends. -/
lemma remove_made_iff (hd : VmasDisjoint vs) (hlt : start < endAddr) (hnodup : l.Nodup) :
    (carveAll (cutting start endAddr) start endAddr vs l).1 = true ↔
      ∀ k ∈ l, (vs k).Around start endAddr →
        0 < freeSlots vs ∨ Neighbour vs (vs k).endAddr (vs k).prot (vs k).flags := by
  induction l with
  | nil => simp [carveAll]
  | cons i l ih =>
    obtain ⟨hil, hnodup'⟩ := List.nodup_cons.mp hnodup
    by_cases hin : (vs i).Around start endAddr
    · -- the one turn that passes a piece on
      have hmeets := hin.meets hlt
      have hst : (vs i).Straddles endAddr := ⟨hin.1, hin.2.1.trans hlt, hin.2.2⟩
      have hkept : VmArea.joins { vs i with endAddr := start } endAddr (vs i).endAddr (vs i).prot
          (vs i).flags = false := by
        rw [Bool.eq_false_iff, Ne, VmArea.joins_iff]
        have := hin.2
        dsimp only
        omega
      have hsome := vmaCreate_behind hd.nonempty hst
        (fun k hk hkind => hd.apart k i hk hkind.1 hin.1) hkept hin.1
      have hright : (∀ k ∈ i :: l, (vs k).Around start endAddr →
          0 < freeSlots vs ∨ Neighbour vs (vs k).endAddr (vs k).prot (vs k).flags) ↔
          0 < freeSlots vs ∨ Neighbour vs (vs i).endAddr (vs i).prot (vs i).flags := by
        refine ⟨fun h => h i List.mem_cons_self hin, fun h k _ hk => ?_⟩
        rwa [hd.eq_of_around hin (hk.meets hlt)]
      rw [hright, carveAll, if_pos hmeets, cutting_around hin]
      simp only [carve, createAll, Bool.and_true, Bool.and_eq_true]
      rw [and_iff_left_of_imp fun hmade => remove_made_of_not_around hnodup' fun k hk =>
        (vmaCreate_made hin.2.2 hmade).not_around hd hin hlt (ne_of_mem_of_not_mem hk hil), hsome]
      split_ifs with hn <;> simp [hn, Nat.one_le_iff_ne_zero, Nat.pos_iff_ne_zero]
    · by_cases hmeets : (vs i).meets start endAddr = true
      · have hno : ∀ k ∈ i :: l, ¬ (vs k).Around start endAddr := by
          intro k _ hk
          exact hin (hd.eq_of_around hk hmeets ▸ hk)
        exact iff_of_true (remove_made_of_not_around hnodup hno) fun k hk h => absurd h (hno k hk)
      · rw [carveAll, if_neg hmeets, ih hnodup']
        simp [hin]

end Bangos.Mm
