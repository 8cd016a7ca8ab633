import Bangos.Fs.Vfs

/-!
# The table of mounts (`vfs_mount`, `vfs_find_mount`)

`vfs_mount` appends to a table of eight entries.  `vfs_find_mount` goes through the table once and
keeps the longest mount point so far that the path lies under; `Covers` says which these are, in
terms of whole components.
-/

namespace Bangos.Fs

variable {ν : Type} {path mp : List UInt8} {mt : Mount ν} {mounts : List (Mount ν)}

/-! ## Mounting -/

/-- `VFS_MAX_MOUNTS`. -/
def maxMounts : ℕ := 8

/-- `vfs_mount`: the table, or `none` for -1.  `mountpoint` has 64 bytes. -/
def vfsMount (mounts : List (Mount ν)) (mountpoint : List UInt8) (root : ν) :
    Option (List (Mount ν)) :=
  if maxMounts ≤ mounts.length then none else some (mounts ++ [⟨mountpoint.take 63, root⟩])

/-- The table after a sequence of calls; one that fails leaves it as it is. -/
def mountAll (calls : List (List UInt8 × ν)) : List (Mount ν) :=
  calls.foldl (fun mounts call => (vfsMount mounts call.1 call.2).getD mounts) []

/-- An absolute mount point that fits the table. -/
structure IsMountPoint (mp : List UInt8) : Prop where
  absolute : mp.head? = some slash
  length_lt : mp.length < 64
  no_nul : (0 : UInt8) ∉ mp

/-- The mount that a call asks for. -/
def asMount (call : List UInt8 × ν) : Mount ν := ⟨call.1, call.2⟩

/-- **The table** has the first eight mounts. -/
lemma mountAll_eq {calls : List (List UInt8 × ν)} (h : ∀ call ∈ calls, IsMountPoint call.1) :
    mountAll calls = (calls.take maxMounts).map asMount := by
  induction calls using List.reverseRecOn with
  | nil => rfl
  | append_singleton calls call ih =>
    have hcall := (h call (List.mem_append_right _ (List.mem_singleton_self call))).length_lt
    have hprev : mountAll calls = _ := ih fun c hc => h c (List.mem_append_left _ hc)
    unfold mountAll at hprev ⊢
    rw [List.foldl_append, List.foldl_cons, List.foldl_nil, hprev]
    unfold vfsMount
    rw [List.length_map, List.length_take, List.take_append]
    split_ifs with hfull
    · rw [show maxMounts - calls.length = 0 by omega, List.take_zero, List.append_nil]
      rfl
    · have hroom : 1 ≤ maxMounts - calls.length := by omega
      have hfits : call.1.take 63 = call.1 := List.take_of_length_le (by omega)
      have hlast : [call].take (maxMounts - calls.length) = [call] := List.take_of_length_le hroom
      rw [List.take_of_length_le (by omega : calls.length ≤ maxMounts), hlast, List.map_append,
        Option.getD_some, hfits]
      rfl

/-! ## The mounts of a path -/

/-- The path lies under the mount point: it is the mount point, goes on with `/` behind it, or is
absolute and the mount point is `/`. -/
def Covers (mp path : List UInt8) : Prop :=
  path = mp ∨ (mp = [slash] ∧ path.head? = some slash) ∨ ∃ t, path = mp ++ slash :: t

lemma startsWith_iff (hmp : (0 : UInt8) ∉ mp) (i : ℕ) :
    startsWith (m := Id) (strRead path) mp i = true ↔ ∃ t, path.drop i = mp ++ t := by
  induction mp generalizing i with
  | nil => exact iff_of_true rfl ⟨_, rfl⟩
  | cons c mp ih =>
    rw [List.mem_cons, not_or] at hmp
    have hstep : startsWith (m := Id) (strRead path) (c :: mp) i =
        if path.getD i 0 = c then startsWith (m := Id) (strRead path) mp (i + 1) else false := rfl
    rw [hstep]
    rcases hd : path.drop i with _ | ⟨d, t⟩
    · rw [drop_eq_nil hd, if_neg hmp.1]
      simp
    · obtain ⟨hget, hdrop, -⟩ := drop_eq_cons hd
      rw [hget]
      by_cases hdc : d = c
      · rw [if_pos hdc, ih hmp.2, hdrop]
        simp [hdc]
      · rw [if_neg hdc]
        simp [hdc]

/-- The test of `vfs_find_mount` is that for whole components. -/
lemma covers_iff (hpath : (0 : UInt8) ∉ path) (hmp : IsMountPoint mp) :
    Covers mp path ↔ startsWith (m := Id) (strRead path) mp 0 = true ∧
      (path.getD mp.length 0 = slash ∨ path.getD mp.length 0 = 0 ∨ mp.length = 1) := by
  rw [startsWith_iff hmp.no_nul, List.drop_zero]
  constructor
  · rintro (rfl | ⟨rfl, hslash⟩ | ⟨t, rfl⟩)
    · exact ⟨⟨[], by simp⟩, Or.inr (Or.inl (by simp))⟩
    · obtain ⟨t, rfl⟩ := List.head?_eq_some_iff.mp hslash
      exact ⟨⟨t, rfl⟩, Or.inr (Or.inr rfl)⟩
    · exact ⟨⟨_, rfl⟩, Or.inl (by simp)⟩
  · rintro ⟨⟨t, rfl⟩, hend⟩
    cases t with
    | nil => exact Or.inl (List.append_nil mp)
    | cons c t =>
      have hget : (mp ++ c :: t).getD mp.length 0 = c := by simp
      rw [hget] at hend
      rcases hend with rfl | rfl | hone
      · exact Or.inr (Or.inr ⟨t, rfl⟩)
      · exact absurd (List.mem_append_right mp List.mem_cons_self) hpath
      · -- an absolute mount point of one character
        obtain ⟨t', rfl⟩ := List.head?_eq_some_iff.mp hmp.absolute
        obtain rfl : t' = [] := by simpa using hone
        exact Or.inr (Or.inl ⟨rfl, rfl⟩)

/-! ## The choice -/

/-- `best` is the mount that a path should be taken to lie under: none of the table if it lies under
none, else the last of the longest that it lies under. -/
def IsBest (mounts : List (Mount ν)) (path : List UInt8) : Option (Mount ν) → Prop
  | none => ∀ mt ∈ mounts, ¬ Covers mt.mountpoint path
  | some best => ∃ before after, mounts = before ++ best :: after ∧ Covers best.mountpoint path ∧
      (∀ mt ∈ before, Covers mt.mountpoint path → mt.mountpoint.length ≤ best.mountpoint.length) ∧
      ∀ mt ∈ after, Covers mt.mountpoint path → mt.mountpoint.length < best.mountpoint.length

lemma betterMount_cases (hpath : (0 : UInt8) ∉ path) (hmp : IsMountPoint mt.mountpoint)
    (best : Option (Mount ν)) :
    (Covers mt.mountpoint path ∧ best.elim 0 (·.mountpoint.length) ≤ mt.mountpoint.length ∧
        betterMount (m := Id) (strRead path) best mt = some mt) ∨
      (¬ (Covers mt.mountpoint path ∧ best.elim 0 (·.mountpoint.length) ≤ mt.mountpoint.length) ∧
        betterMount (m := Id) (strRead path) best mt = best) := by
  rw [covers_iff hpath hmp, betterMount]
  generalize startsWith (m := Id) (strRead path) mt.mountpoint 0 = b
  cases b
  · exact Or.inr ⟨fun h => Bool.false_ne_true h.1.1, rfl⟩
  · by_cases hc : (path.getD mt.mountpoint.length 0 = slash ∨ path.getD mt.mountpoint.length 0 = 0 ∨
        mt.mountpoint.length = 1) ∧ best.elim 0 (·.mountpoint.length) ≤ mt.mountpoint.length
    · exact Or.inl ⟨⟨rfl, hc.1⟩, hc.2, if_pos hc⟩
    · exact Or.inr ⟨fun h => hc ⟨h.1.2, h.2⟩, if_neg hc⟩

lemma IsBest.turn {best : Option (Mount ν)} (h : IsBest mounts path best)
    (hpath : (0 : UInt8) ∉ path) (hmp : IsMountPoint mt.mountpoint) :
    IsBest (mounts ++ [mt]) path (betterMount (m := Id) (strRead path) best mt) := by
  rcases betterMount_cases hpath hmp best with ⟨hcov, hlen, heq⟩ | ⟨hnot, heq⟩
  · rw [heq]
    refine ⟨mounts, [], rfl, hcov, fun x hx hx' => ?_, fun x hx => absurd hx List.not_mem_nil⟩
    cases best with
    | none => exact absurd hx' (h x hx)
    | some b =>
      obtain ⟨before, after, rfl, -, hbefore, hafter⟩ := h
      have hb : b.mountpoint.length ≤ mt.mountpoint.length := hlen
      rcases List.mem_append.mp hx with hx | hx
      · exact (hbefore x hx hx').trans hb
      · rcases List.mem_cons.mp hx with rfl | hx
        · exact hb
        · exact ((hafter x hx hx').trans_le hb).le
  · rw [heq]
    cases best with
    | none =>
      intro x hx
      rcases List.mem_append.mp hx with hx | hx
      · exact h x hx
      · rw [List.mem_singleton.mp hx]
        exact fun hc => hnot ⟨hc, Nat.zero_le _⟩
    | some b =>
      obtain ⟨before, after, rfl, hcov, hbefore, hafter⟩ := h
      refine ⟨before, after ++ [mt], by simp, hcov, hbefore, fun x hx hx' => ?_⟩
      rcases List.mem_append.mp hx with hx | hx
      · exact hafter x hx hx'
      · rw [List.mem_singleton.mp hx] at hx' ⊢
        exact not_le.mp fun hle => hnot ⟨hx', hle⟩

/-- **The loop of `vfs_find_mount`.** -/
lemma mountOf_isBest (hpath : (0 : UInt8) ∉ path)
    (hmp : ∀ mt ∈ mounts, IsMountPoint mt.mountpoint) :
    IsBest mounts path (mountOf mounts path) := by
  induction mounts using List.reverseRecOn with
  | nil => exact fun mt hmt => absurd hmt List.not_mem_nil
  | append_singleton mounts mt ih =>
    have hprev := ih fun x hx => hmp x (List.mem_append_left _ hx)
    have hlast := hmp mt (List.mem_append_right _ (List.mem_singleton_self mt))
    have hstep : mountOf (mounts ++ [mt]) path =
        betterMount (m := Id) (strRead path) (mountOf mounts path) mt := by
      unfold mountOf vfsFindMount
      rw [List.foldlM_append]
      rfl
    rw [hstep]
    exact hprev.turn hpath hlast

/-! ## The relative path -/

section Relative

variable {m : Type → Type} [Monad m]

/-- `vfs_find_mount` with its second result: the mount, and where the relative path starts. -/
def vfsFindMountRel (fuel : ℕ) (mounts : List (Mount ν)) (rd : ℕ → m UInt8) :
    m (Option (Mount ν × ℕ)) := do
  match ← vfsFindMount mounts rd with
  | none => pure none
  | some mt =>
    let p ← skipSlashes rd fuel mt.mountpoint.length
    pure (some (mt, p))

/-- `vfs_lookup` starts where `vfs_find_mount` says. -/
lemma vfsLookup_eq_findMountRel [LawfulMonad m] (fuel : ℕ) (ops : VfsOps ν m)
    (rd : ℕ → m UInt8) :
    vfsLookup fuel mounts ops rd = (do
      match ← vfsFindMountRel fuel mounts rd with
      | none => pure none
      | some (mt, p) => vfsWalk ops rd (fuel + 1) mt.root p) := by
  unfold vfsLookup vfsFindMountRel
  rw [bind_assoc]
  refine bind_congr fun r => ?_
  cases r with
  | none => simp
  | some mt => simp

end Relative

/-- `vfs_find_mount` on a string: the mount and the relative path. -/
def findMount (mounts : List (Mount ν)) (path : List UInt8) : Option (Mount ν × List UInt8) :=
  (vfsFindMountRel (m := Id) path.length mounts (strRead path)).map fun r => (r.1, path.drop r.2)

lemma findMount_eq (mounts : List (Mount ν)) (path : List UInt8) :
    findMount mounts path = (mountOf mounts path).map fun mt =>
      (mt, (path.drop mt.mountpoint.length).dropWhile (· = slash)) := by
  have hrel : vfsFindMountRel (m := Id) path.length mounts (strRead path) =
      (mountOf mounts path).map fun mt => (mt, mt.mountpoint.length +
        ((path.drop mt.mountpoint.length).takeWhile (· = slash)).length) := by
    unfold vfsFindMountRel
    rw [vfsFindMount_strRead, pure_bind]
    cases mountOf mounts path with
    | none => rfl
    | some mt =>
      dsimp only
      rw [skipSlashes_strRead (by omega), pure_bind]
      rfl
  unfold findMount
  rw [hrel, Option.map_map]
  refine congrArg (fun f => Option.map f (mountOf mounts path)) (funext fun mt => ?_)
  rw [Function.comp_apply, drop_skipped]

/-- **Mount selection**: after any sequence of mounts at absolute mount points, of which the first
eight succeed, `vfs_find_mount` returns NULL exactly for the paths that lie under none of them; else
it returns the last of the longest that the path lies under, and the rest of the path without
leading slashes. -/
theorem mount_selection (calls : List (List UInt8 × ν)) (path : List UInt8)
    (hcalls : ∀ call ∈ calls, IsMountPoint call.1) (hpath : (0 : UInt8) ∉ path) :
    mountAll calls = (calls.take maxMounts).map asMount ∧
      (findMount (mountAll calls) path = none ↔
        ∀ mt ∈ mountAll calls, ¬ Covers mt.mountpoint path) ∧
      ∀ mt rel, findMount (mountAll calls) path = some (mt, rel) →
        (∃ before after, mountAll calls = before ++ mt :: after ∧ Covers mt.mountpoint path ∧
          (∀ x ∈ before, Covers x.mountpoint path → x.mountpoint.length ≤ mt.mountpoint.length) ∧
          ∀ x ∈ after, Covers x.mountpoint path → x.mountpoint.length < mt.mountpoint.length) ∧
        rel = (path.drop mt.mountpoint.length).dropWhile (· = slash) := by
  have htable := mountAll_eq hcalls
  have hpoints : ∀ mt ∈ mountAll calls, IsMountPoint mt.mountpoint := by
    intro mt hmt
    rw [htable] at hmt
    obtain ⟨call, hcall, rfl⟩ := List.mem_map.mp hmt
    exact hcalls call (List.mem_of_mem_take hcall)
  have hbest := mountOf_isBest hpath hpoints
  refine ⟨htable, ?_, fun mt rel hfind => ?_⟩
  · rw [findMount_eq, Option.map_eq_none_iff]
    constructor
    · intro hnone
      rw [hnone] at hbest
      exact hbest
    · intro hall
      cases hsel : mountOf (mountAll calls) path with
      | none => rfl
      | some mt =>
        rw [hsel] at hbest
        obtain ⟨before, after, heq, hcov, -⟩ := hbest
        exact absurd hcov (hall mt (by rw [heq]; simp))
  · rw [findMount_eq] at hfind
    obtain ⟨mt', hsel, heq⟩ := Option.map_eq_some_iff.mp hfind
    obtain ⟨rfl, rfl⟩ := Prod.mk.inj heq
    rw [hsel] at hbest
    exact ⟨hbest, rfl⟩

/-- With mounts at `/` and `/a`, the path `/ab` lies under the first only. -/
theorem mount_selection_sibling :
    findMount (mountAll [([slash], 0), ([slash, 97], 1)]) [slash, 97, 98] ≠ none ∧
      ∀ mt rel, findMount (mountAll [([slash], 0), ([slash, 97], 1)]) [slash, 97, 98] =
        some (mt, rel) → mt.root = 0 ∧ rel = [97, 98] := by
  have hcalls : ∀ call ∈ [([slash], 0), ([slash, 97], 1)], IsMountPoint call.1 := by
    intro call hcall
    rcases List.mem_cons.mp hcall with rfl | hcall
    · exact ⟨rfl, by decide, by decide⟩
    · rw [List.mem_singleton.mp hcall]
      exact ⟨rfl, by decide, by decide⟩
  obtain ⟨htable, hnone, hsome⟩ := mount_selection [([slash], 0), ([slash, 97], 1)] [slash, 97, 98]
    hcalls (by decide)
  have htable : mountAll [([slash], 0), ([slash, 97], 1)] =
      [⟨[slash], 0⟩, ⟨[slash, 97], 1⟩] := htable
  rw [htable] at hnone hsome ⊢
  refine ⟨fun h => ?_, fun mt rel h => ?_⟩
  · exact hnone.mp h ⟨[slash], 0⟩ List.mem_cons_self (Or.inr (Or.inl ⟨rfl, rfl⟩))
  · obtain ⟨⟨before, after, heq, hcov, -⟩, hrel⟩ := hsome mt rel h
    have hmem : mt ∈ [(⟨[slash], 0⟩ : Mount ℕ), ⟨[slash, 97], 1⟩] := by
      rw [heq]
      exact List.mem_append_right _ List.mem_cons_self
    rcases List.mem_cons.mp hmem with rfl | hmem
    · exact ⟨rfl, hrel⟩
    · rw [List.mem_singleton.mp hmem] at hcov
      rcases hcov with h1 | ⟨h1, -⟩ | ⟨t, h1⟩
      · exact absurd h1 (by decide)
      · exact absurd h1 (by decide)
      · simp only [List.cons_append, List.nil_append, List.cons.injEq] at h1
        exact absurd h1.2.2.1 (by decide)

end Bangos.Fs
