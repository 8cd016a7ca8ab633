import Bangos.Mm.AreaMap

/-!
# The pieces that the loops over the areas hand to `vma_create`

A turn of `vma_remove` or `vma_protect` leaves a part of the area it has come to in its slot and
passes the other pieces to `vma_create`.  Neither loop looks at what `vma_create` returns.  Here
each turn is a carving, what is kept and what is passed on, and the loop runs with a note beside
the table of whether every piece was made.
-/

namespace Bangos.Mm

variable {vs vs' : VmaTable} {start endAddr s e q f x newProt : ℕ} {i j k : Fin maxProcessVmas}
  {v : VmArea}

/-! ## What `vma_create` makes -/

/-- An area in use with this protection and these flags. -/
def VmArea.Kind (v : VmArea) (q f : ℕ) : Prop := v.used = true ∧ v.prot = q ∧ v.flags = f

instance (v : VmArea) (q f : ℕ) : Decidable (v.Kind q f) := inferInstanceAs (Decidable (_ ∧ _))

lemma VmArea.joins_iff : v.joins s e q f = true ↔
    v.Kind q f ∧ (v.start ≤ s ∧ e ≤ v.endAddr ∨ v.endAddr = s ∨ v.start = e) := by
  simp only [VmArea.joins, VmArea.Kind, Bool.and_eq_true, Bool.or_eq_true, beq_iff_eq,
    decide_eq_true_eq, or_assoc, and_assoc]

/-- All that `vma_create` can do to the table when it returns an area: leave the area that
contains the range, extend the first that the range can be joined to, or fill a free slot. -/
inductive Made (vs : VmaTable) (s e q f : ℕ) : VmaTable → Prop
  | inside (k : Fin maxProcessVmas) (hk : (vs k).Kind q f) (hs : (vs k).start ≤ s)
      (he : e ≤ (vs k).endAddr) : Made vs s e q f vs
  | right (k : Fin maxProcessVmas) (hk : (vs k).Kind q f) (he : (vs k).endAddr = s)
      (hfirst : ∀ j < k, (vs j).joins s e q f = false) :
      Made vs s e q f (Function.update vs k { vs k with endAddr := e })
  | left (k : Fin maxProcessVmas) (hk : (vs k).Kind q f) (hs : (vs k).start = e)
      (hfirst : ∀ j < k, (vs j).joins s e q f = false) :
      Made vs s e q f (Function.update vs k { vs k with start := s })
  | fresh (k : Fin maxProcessVmas) (hk : (vs k).used = false)
      (hno : ∀ j, (vs j).joins s e q f = false) :
      Made vs s e q f (Function.update vs k ⟨s, e, q, f, true⟩)

/-- `vma_create` fails when no area can be extended and no slot is free; otherwise it makes the
range. -/
lemma vmaCreate_cases_made (vs : VmaTable) (q f : ℕ) (hlt : s < e) :
    (vmaCreate vs s e q f = (none, vs) ∧ (∀ j, (vs j).joins s e q f = false) ∧
        ∀ j, (vs j).used = true) ∨
      (vmaCreate vs s e q f).1.isSome = true ∧ Made vs s e q f (vmaCreate vs s e q f).2 := by
  unfold vmaCreate
  rw [if_neg (not_le.mpr hlt)]
  cases hjoin : (List.finRange maxProcessVmas).find? fun i => (vs i).joins s e q f with
  | some k =>
    obtain ⟨hjoins, n, hn, hat, hbefore⟩ := List.find?_eq_some_iff_getElem.mp hjoin
    obtain ⟨hk, hcase⟩ := VmArea.joins_iff.mp hjoins
    rw [List.getElem_finRange] at hat
    have hfirst : ∀ j < k, (vs j).joins s e q f = false := by
      intro j hj
      have hjn : j.val < n := by
        rw [← hat] at hj
        exact hj
      simpa using hbefore j.val hjn
    refine Or.inr ⟨rfl, ?_⟩
    dsimp only
    unfold VmArea.join
    split_ifs with hin hend
    · rw [Function.update_eq_self]
      exact .inside k hk hin.1 hin.2
    · exact .right k hk hend hfirst
    · exact .left k hk ((hcase.resolve_left hin).resolve_left hend) hfirst
  | none =>
    have hno : ∀ j, (vs j).joins s e q f = false := by simpa using hjoin
    dsimp only
    cases hslot : (List.finRange maxProcessVmas).find? fun i => !(vs i).used with
    | some k =>
      have hk : (vs k).used = false := by simpa using List.find?_some hslot
      exact Or.inr ⟨rfl, .fresh k hk hno⟩
    | none => exact Or.inl ⟨rfl, hno, by simpa using hslot⟩

lemma vmaCreate_made (hlt : s < e) (h : (vmaCreate vs s e q f).1.isSome = true) :
    Made vs s e q f (vmaCreate vs s e q f).2 := by
  rcases vmaCreate_cases_made vs q f hlt with ⟨hc, -⟩ | ⟨-, hm⟩
  · simp [hc] at h
  · exact hm

lemma Made.slot_cases (h : Made vs s e q f vs') (k : Fin maxProcessVmas) :
    vs' k = vs k ∨
      (vs k).Kind q f ∧ (vs k).endAddr = s ∧ vs' k = { vs k with endAddr := e } ∨
      ((vs k).Kind q f ∧ (vs k).start = e ∧ vs' k = { vs k with start := s } ∧
        ∀ j < k, (vs j).joins s e q f = false) ∨
      (vs k).used = false ∧ vs' k = ⟨s, e, q, f, true⟩ ∧ ∀ j, (vs j).joins s e q f = false := by
  cases h with
  | inside u hu hs he => exact Or.inl rfl
  | right u hu he _ =>
    by_cases hk : k = u
    · subst hk
      exact Or.inr (Or.inl ⟨hu, he, Function.update_self ..⟩)
    · exact Or.inl (Function.update_of_ne hk ..)
  | left u hu hs hfirst =>
    by_cases hk : k = u
    · subst hk
      exact Or.inr (Or.inr (Or.inl ⟨hu, hs, Function.update_self .., hfirst⟩))
    · exact Or.inl (Function.update_of_ne hk ..)
  | fresh u hu hno =>
    by_cases hk : k = u
    · subst hk
      exact Or.inr (Or.inr (Or.inr ⟨hu, Function.update_self .., hno⟩))
    · exact Or.inl (Function.update_of_ne hk ..)

lemma Made.grown (h : Made vs s e q f vs') : Grown vs s e vs' := by
  cases h with
  | inside u hu hs he => exact .same
  | right u hu he _ => exact .right u hu.1 he
  | left u hu hs _ => exact .left u hu.1 hs
  | fresh u hu _ => exact .fresh u hu q f

/-! ## Free slots -/

/-- The number of free slots. -/
def freeSlots (vs : VmaTable) : ℕ := (Finset.univ.filter fun k => (vs k).used = false).card

lemma freeSlots_update (h : v.used = (vs i).used) :
    freeSlots (Function.update vs i v) = freeSlots vs := by
  unfold freeSlots
  congr 1
  ext k
  by_cases hk : k = i
  · subst hk
    simp [h]
  · simp [hk]

lemma freeSlots_fill (hi : (vs i).used = false) (hv : v.used = true) :
    freeSlots (Function.update vs i v) + 1 = freeSlots vs := by
  unfold freeSlots
  have hmem : i ∈ Finset.univ.filter fun k => (vs k).used = false := by simpa using hi
  rw [← Finset.card_erase_add_one hmem]
  congr 2
  ext k
  by_cases hk : k = i
  · subst hk
    simp [hv]
  · simp [hk]

lemma freeSlots_pos : 0 < freeSlots vs ↔ ∃ j, (vs j).used = false := by
  simp [freeSlots, Finset.card_pos, Finset.filter_nonempty_iff]

/-- The slots that `vma_create` takes for a range: none when it can extend an area. -/
def slotsFor (vs : VmaTable) (s e q f : ℕ) : ℕ :=
  if ∃ k, (vs k).joins s e q f = true then 0 else 1

lemma Made.freeSlots (h : Made vs s e q f vs') :
    freeSlots vs' + slotsFor vs s e q f = Mm.freeSlots vs := by
  unfold slotsFor
  cases h with
  | inside k hk hs he =>
    rw [if_pos ⟨k, VmArea.joins_iff.mpr ⟨hk, by simp [hs, he]⟩⟩, Nat.add_zero]
  | right k hk he _ =>
    rw [if_pos ⟨k, VmArea.joins_iff.mpr ⟨hk, by simp [he]⟩⟩, Nat.add_zero]
    exact freeSlots_update rfl
  | left k hk hs _ =>
    rw [if_pos ⟨k, VmArea.joins_iff.mpr ⟨hk, by simp [hs]⟩⟩, Nat.add_zero]
    exact freeSlots_update rfl
  | fresh k hk hno =>
    rw [if_neg (by simp [hno])]
    exact freeSlots_fill hk rfl

/-- `vma_create` makes a range as long as it has the slots it takes for it. -/
lemma vmaCreate_isSome (vs : VmaTable) (q f : ℕ) (hlt : s < e) :
    (vmaCreate vs s e q f).1.isSome = true ↔ slotsFor vs s e q f ≤ freeSlots vs := by
  rcases vmaCreate_cases_made vs q f hlt with ⟨hc, hno, hfull⟩ | ⟨hc, hm⟩
  · have hzero : freeSlots vs = 0 := by
      by_contra hpos
      obtain ⟨j, hj⟩ := freeSlots_pos.mp (Nat.pos_of_ne_zero hpos)
      simp [hfull j] at hj
    simp [hc, hno, hzero, slotsFor]
  · exact iff_of_true hc (Nat.le_of_add_left_le hm.freeSlots.le)

/-! ## What the areas map -/

/-- The area maps `x` with this protection and these flags. -/
def VmArea.Maps (v : VmArea) (x q f : ℕ) : Prop := v.Kind q f ∧ v.span.Has x

/-- Some area of the table maps `x` with this protection and these flags. -/
def Maps (vs : VmaTable) (x q f : ℕ) : Prop := ∃ k, (vs k).Maps x q f

/-- Every area in use is non-empty. -/
def Solid (vs : VmaTable) : Prop := ∀ k, (vs k).used = true → (vs k).start < (vs k).endAddr

lemma maps_update : Maps (Function.update vs i v) x q f ↔
    v.Maps x q f ∨ ∃ k, k ≠ i ∧ (vs k).Maps x q f := by
  constructor
  · rintro ⟨k, hk⟩
    by_cases hki : k = i
    · subst hki
      rw [Function.update_self] at hk
      exact Or.inl hk
    · rw [Function.update_of_ne hki] at hk
      exact Or.inr ⟨k, hki, hk⟩
  · rintro (hv | ⟨k, hki, hk⟩)
    · exact ⟨i, by rwa [Function.update_self]⟩
    · exact ⟨k, by rwa [Function.update_of_ne hki]⟩

lemma maps_update_grow {q' f' : ℕ}
    (h : v.Maps x q f ↔ (vs i).Maps x q f ∨ (⟨s, e, q', f', true⟩ : VmArea).Maps x q f) :
    Maps (Function.update vs i v) x q f ↔
      Maps vs x q f ∨ (⟨s, e, q', f', true⟩ : VmArea).Maps x q f := by
  rw [maps_update, h]
  constructor
  · rintro ((hi | hv) | ⟨k, -, hk⟩)
    · exact Or.inl ⟨i, hi⟩
    · exact Or.inr hv
    · exact Or.inl ⟨k, hk⟩
  · rintro (⟨k, hk⟩ | hv)
    · by_cases hki : k = i
      · subst hki
        exact Or.inl (Or.inl hk)
      · exact Or.inr ⟨k, hki, hk⟩
    · exact Or.inl (Or.inr hv)

lemma Made.maps {q' f' : ℕ} (h : Made vs s e q' f' vs') (hlt : s < e) (hsolid : Solid vs) :
    Maps vs' x q f ↔ Maps vs x q f ∨ (⟨s, e, q', f', true⟩ : VmArea).Maps x q f := by
  cases h with
  | inside k hk hs he =>
    refine ⟨Or.inl, fun h => h.elim id ?_⟩
    rintro ⟨⟨-, rfl, rfl⟩, hx⟩
    exact ⟨k, hk, hs.trans hx.1, hx.2.trans_le he⟩
  | right k hk he _ =>
    have hne := hsolid k hk.1
    obtain ⟨hu, hq, hf⟩ := hk
    refine maps_update_grow ?_
    simp only [VmArea.Maps, VmArea.Kind, VmArea.span, Span.Has, hu, hq, hf, true_and, ← and_or_left]
    refine and_congr_right fun _ => ?_
    omega
  | left k hk hs _ =>
    have hne := hsolid k hk.1
    obtain ⟨hu, hq, hf⟩ := hk
    refine maps_update_grow ?_
    simp only [VmArea.Maps, VmArea.Kind, VmArea.span, Span.Has, hu, hq, hf, true_and, ← and_or_left]
    refine and_congr_right fun _ => ?_
    omega
  | fresh k hk _ =>
    refine maps_update_grow (Iff.symm (or_iff_right fun hm => ?_))
    exact absurd (hm.1.1.symm.trans hk) (by simp)

lemma Solid.update (h : Solid vs) (hv : v.used = true → v.start < v.endAddr) :
    Solid (Function.update vs i v) :=
  forall_used_update (P := fun v => v.start < v.endAddr) h hv

lemma Made.solid (h : Made vs s e q f vs') (hlt : s < e) (hsolid : Solid vs) : Solid vs' := by
  cases h with
  | inside k hk hs he => exact hsolid
  | right k hk he _ =>
    have hne := hsolid k hk.1
    exact hsolid.update fun _ => show (vs k).start < e by omega
  | left k hk hs _ =>
    have hne := hsolid k hk.1
    exact hsolid.update fun _ => show s < (vs k).endAddr by omega
  | fresh k hk _ => exact hsolid.update fun _ => hlt

lemma covered_iff_maps : Covered vs x ↔ ∃ q f, Maps vs x q f := by
  constructor
  · rintro ⟨k, hu, hx⟩
    exact ⟨_, _, k, ⟨hu, rfl, rfl⟩, hx⟩
  · rintro ⟨q, f, k, hkind, hx⟩
    exact ⟨k, hkind.1, hx⟩

lemma maps_of_areaMap (h : areaMap vs x = some (q, f)) : Maps vs x q f := by
  obtain ⟨k, hfind, hk⟩ := Option.map_eq_some_iff.mp h
  obtain ⟨hu, hx⟩ := vmaFind_eq_some hfind
  obtain ⟨hq, hf⟩ := Prod.mk.inj hk
  exact ⟨k, ⟨hu, hq, hf⟩, hx⟩

lemma VmasDisjoint.areaMap_of_maps (hd : VmasDisjoint vs) (h : Maps vs x q f) :
    areaMap vs x = some (q, f) := by
  obtain ⟨k, ⟨hu, rfl, rfl⟩, hx⟩ := h
  exact hd.areaMap_of_has hu hx

/-- Where the areas of two tables map the same and one table is disjoint, `vma_find` answers the
same. -/
lemma VmasDisjoint.areaMap_congr (hd : VmasDisjoint vs)
    (h : ∀ q f, Maps vs' x q f ↔ Maps vs x q f) : areaMap vs' x = areaMap vs x := by
  cases hx : areaMap vs' x with
  | none =>
    rw [areaMap_eq_none, covered_iff_maps] at hx
    symm
    rw [areaMap_eq_none, covered_iff_maps]
    rintro ⟨q, f, hm⟩
    exact hx ⟨q, f, (h q f).mpr hm⟩
  | some y => exact (hd.areaMap_of_maps ((h _ _).mp (maps_of_areaMap hx))).symm

/-! ## Carving -/

/-- Passes the pieces to `vma_create`, one after the other, and notes whether all were made. -/
def createAll : VmaTable → List VmArea → Bool × VmaTable
  | vs, [] => (true, vs)
  | vs, a :: pieces =>
    let r := vmaCreate vs a.start a.endAddr a.prot a.flags
    let rest := createAll r.2 pieces
    (r.1.isSome && rest.1, rest.2)

/-- What a turn makes of an area that meets the range: the part left in its slot, and the pieces
passed to `vma_create`. -/
structure Carving where
  kept : VmArea
  pieces : List VmArea

/-- A turn of `vma_remove` at `v`. -/
def cutting (start endAddr : ℕ) (v : VmArea) : Carving :=
  if start ≤ v.start ∧ v.endAddr ≤ endAddr then ⟨{ v with used := false }, []⟩
  else if start ≤ v.start ∧ endAddr < v.endAddr then ⟨{ v with start := endAddr }, []⟩
  else if v.start < start ∧ v.endAddr ≤ endAddr then ⟨{ v with endAddr := start }, []⟩
  else ⟨{ v with endAddr := start }, [⟨endAddr, v.endAddr, v.prot, v.flags, true⟩]⟩

/-- A turn of `vma_protect` at `v`. -/
def reprotecting (start endAddr newProt : ℕ) (v : VmArea) : Carving :=
  if start ≤ v.start ∧ v.endAddr ≤ endAddr then ⟨{ v with prot := newProt }, []⟩
  else if start ≤ v.start ∧ endAddr < v.endAddr then
    ⟨{ v with endAddr := endAddr, prot := newProt }, [⟨endAddr, v.endAddr, v.prot, v.flags, true⟩]⟩
  else if v.start < start ∧ v.endAddr ≤ endAddr then
    ⟨{ v with endAddr := start }, [⟨start, endAddr, newProt, v.flags, true⟩]⟩
  else
    ⟨{ v with endAddr := start }, [⟨start, endAddr, newProt, v.flags, true⟩,
      ⟨endAddr, v.endAddr, v.prot, v.flags, true⟩]⟩

/-- A turn at slot `i`, with the note. -/
def carve (vs : VmaTable) (i : Fin maxProcessVmas) (c : Carving) : Bool × VmaTable :=
  createAll (Function.update vs i c.kept) c.pieces

/-- The turns at the slots `l`, with the note. -/
def carveAll (f : VmArea → Carving) (start endAddr : ℕ) :
    VmaTable → List (Fin maxProcessVmas) → Bool × VmaTable
  | vs, [] => (true, vs)
  | vs, i :: l =>
    if (vs i).meets start endAddr then
      let r := carve vs i (f (vs i))
      let rest := carveAll f start endAddr r.2 l
      (r.1 && rest.1, rest.2)
    else carveAll f start endAddr vs l

lemma vmaCut_eq (vs : VmaTable) (start endAddr : ℕ) (i : Fin maxProcessVmas) :
    vmaCut vs start endAddr i = (carve vs i (cutting start endAddr (vs i))).2 := by
  unfold vmaCut cutting
  dsimp only
  split_ifs <;> rfl

lemma vmaReprotect_eq (vs : VmaTable) (start endAddr newProt : ℕ) (i : Fin maxProcessVmas) :
    vmaReprotect vs start endAddr newProt i =
      (carve vs i (reprotecting start endAddr newProt (vs i))).2 := by
  unfold vmaReprotect reprotecting
  dsimp only
  split_ifs <;> rfl

/-- The note is kept beside what `vma_remove` does to the table. -/
lemma vmaRemove_carveAll (m : Mem) (vs : VmaTable) (hlt : start < endAddr) :
    (vmaRemove m vs start endAddr).2.2 =
      (carveAll (cutting start endAddr) start endAddr vs (List.finRange maxProcessVmas)).2 := by
  unfold vmaRemove
  rw [if_neg (not_le.mpr hlt)]
  dsimp only
  generalize List.finRange maxProcessVmas = l
  induction l generalizing m vs with
  | nil => rfl
  | cons i l ih =>
    rw [List.foldl_cons, carveAll, vmaRemoveStep]
    dsimp only
    split_ifs
    · rw [ih, vmaCut_eq]
    · exact ih m vs

/-- The note is kept beside what `vma_protect` does to the table. -/
lemma vmaProtect_carveAll (m : Mem) (vs : VmaTable) (newProt : ℕ) (hlt : start < endAddr) :
    (vmaProtect m vs start endAddr newProt).2.2 =
      (carveAll (reprotecting start endAddr newProt) start endAddr vs
        (List.finRange maxProcessVmas)).2 := by
  unfold vmaProtect
  rw [if_neg (not_le.mpr hlt)]
  dsimp only
  generalize List.finRange maxProcessVmas = l
  induction l generalizing m vs with
  | nil => rfl
  | cons i l ih =>
    rw [List.foldl_cons, carveAll, vmaProtectStep]
    dsimp only
    split_ifs
    · rw [ih, vmaReprotect_eq]
    · exact ih m vs

/-- A carving of areas that loses nothing outside the range. -/
structure Carves (g : VmArea → Carving) (start endAddr : ℕ) : Prop where
  kept_lt : ∀ v, v.meets start endAddr = true → v.start < v.endAddr → (g v).kept.used = true →
    (g v).kept.start < (g v).kept.endAddr
  piece : ∀ v, v.meets start endAddr = true → ∀ a ∈ (g v).pieces,
    a.used = true ∧ a.start < a.endAddr
  outside : ∀ v, v.meets start endAddr = true → ∀ x, ¬(start ≤ x ∧ x < endAddr) → ∀ q f,
    ((g v).kept.Maps x q f ∨ ∃ a ∈ (g v).pieces, a.Maps x q f) ↔ v.Maps x q f

lemma createAll_spec {pieces : List VmArea} (hmade : (createAll vs pieces).1 = true)
    (hsolid : Solid vs) (hp : ∀ a ∈ pieces, a.used = true ∧ a.start < a.endAddr) :
    Solid (createAll vs pieces).2 ∧ ∀ x q f,
      Maps (createAll vs pieces).2 x q f ↔ Maps vs x q f ∨ ∃ a ∈ pieces, a.Maps x q f := by
  induction pieces generalizing vs with
  | nil => exact ⟨hsolid, by simp [createAll]⟩
  | cons a pieces ih =>
    obtain ⟨hu, hlt⟩ := hp a List.mem_cons_self
    rw [createAll, Bool.and_eq_true] at hmade
    have hm := vmaCreate_made hlt hmade.1
    obtain ⟨hs, hmaps⟩ := ih hmade.2 (hm.solid hlt hsolid) fun b hb => hp b (List.mem_cons_of_mem _ hb)
    refine ⟨hs, fun x q f => ?_⟩
    have ha : (⟨a.start, a.endAddr, a.prot, a.flags, true⟩ : VmArea) = a := by
      rw [← hu]
    rw [createAll, hmaps, hm.maps hlt hsolid, ha, or_assoc]
    simp

lemma carve_spec {g : VmArea → Carving} (hg : Carves g start endAddr) (hsolid : Solid vs)
    (hmeets : (vs i).meets start endAddr = true) (hmade : (carve vs i (g (vs i))).1 = true) :
    Solid (carve vs i (g (vs i))).2 ∧ ∀ x q f, Maps (carve vs i (g (vs i))).2 x q f ↔
      ((g (vs i)).kept.Maps x q f ∨ ∃ a ∈ (g (vs i)).pieces, a.Maps x q f) ∨
        ∃ k, k ≠ i ∧ (vs k).Maps x q f := by
  have hu := (VmArea.meets_iff.mp hmeets).1
  obtain ⟨hs, hmaps⟩ := createAll_spec hmade
    (hsolid.update (hg.kept_lt _ hmeets (hsolid i hu))) (hg.piece _ hmeets)
  refine ⟨hs, fun x q f => (hmaps x q f).trans ?_⟩
  rw [maps_update, or_right_comm]

/-- When every piece is made, the loop changes nothing outside the range. -/
lemma carveAll_outside {g : VmArea → Carving} (hg : Carves g start endAddr)
    {l : List (Fin maxProcessVmas)} (hsolid : Solid vs)
    (hmade : (carveAll g start endAddr vs l).1 = true) (hx : ¬(start ≤ x ∧ x < endAddr)) :
    Maps (carveAll g start endAddr vs l).2 x q f ↔ Maps vs x q f := by
  induction l generalizing vs with
  | nil => rfl
  | cons i l ih =>
    rw [carveAll] at hmade ⊢
    split_ifs at hmade ⊢ with hmeets
    · rw [Bool.and_eq_true] at hmade
      obtain ⟨hs, hmaps⟩ := carve_spec hg hsolid hmeets hmade.1
      rw [ih hs hmade.2, hmaps, hg.outside _ hmeets x hx, ← maps_update, Function.update_eq_self]
    · exact ih hsolid hmade

lemma cutting_carves (start endAddr : ℕ) : Carves (cutting start endAddr) start endAddr where
  kept_lt v hmeets hne hu := by
    obtain ⟨-, h₁, h₂⟩ := VmArea.meets_iff.mp hmeets
    unfold cutting at hu ⊢
    split_ifs at hu ⊢ <;> simp_all
  piece v hmeets a ha := by
    unfold cutting at ha
    split_ifs at ha <;> simp at ha
    subst ha
    exact ⟨rfl, by dsimp only; omega⟩
  outside v hmeets x hx q f := by
    obtain ⟨hu, h₁, h₂⟩ := VmArea.meets_iff.mp hmeets
    unfold cutting
    split_ifs <;>
      simp only [VmArea.Maps, VmArea.Kind, VmArea.span, Span.Has, hu, List.mem_singleton,
        exists_eq_left, List.not_mem_nil, false_and, exists_false, or_false, true_and,
        Bool.false_eq_true, false_iff] <;>
      omega

lemma reprotecting_carves (hlt : start < endAddr) (newProt : ℕ) :
    Carves (reprotecting start endAddr newProt) start endAddr where
  kept_lt v hmeets hne hu := by
    obtain ⟨-, h₁, h₂⟩ := VmArea.meets_iff.mp hmeets
    unfold reprotecting
    split_ifs <;> dsimp only <;> omega
  piece v hmeets a ha := by
    unfold reprotecting at ha
    split_ifs at ha <;>
      simp only [List.mem_cons, List.not_mem_nil, or_false] at ha
    · subst ha
      exact ⟨rfl, by dsimp only; omega⟩
    · subst ha
      exact ⟨rfl, hlt⟩
    · rcases ha with rfl | rfl
      · exact ⟨rfl, hlt⟩
      · exact ⟨rfl, by dsimp only; omega⟩
  outside v hmeets x hx q f := by
    obtain ⟨hu, h₁, h₂⟩ := VmArea.meets_iff.mp hmeets
    unfold reprotecting
    split_ifs <;>
      simp only [VmArea.Maps, VmArea.Kind, VmArea.span, Span.Has, hu, List.mem_cons,
        List.not_mem_nil, or_false, exists_eq_or_imp, exists_eq_left, false_and, exists_false,
        true_and] <;>
      omega

end Bangos.Mm
