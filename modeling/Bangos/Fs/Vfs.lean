import Mathlib

/-!
# Paths (`kernel/fs/vfs.c`)

`vfs_lookup` and `vfs_open` read a path character by character and ask the file systems for
one component after another.  A path may be a string of the kernel or a pointer a process
passed in, and a file system may keep a state of its own, so the functions are given over any
monad: `rd i` reads character `i` of the path, and the operations of the nodes are actions.

The loops end at the NUL of the path; `fuel` bounds the number of their turns, and for a
string any `fuel` above its length gives the same result (`vfsLookup_strRead`).
-/

namespace Bangos.Fs

/-- The character `/`. -/
abbrev slash : UInt8 := 0x2F

/-- A string constant. -/
def ascii (s : String) : List UInt8 := s.toList.map fun c => UInt8.ofNat c.toNat

/-- A slot of `mounts`. -/
structure Mount (ν : Type) where
  mountpoint : List UInt8
  root : ν

/-- The operations of nodes that `vfs.c` uses on paths.  They fail, with `none`, where the
node has no such operation.  No file system has an `open` operation. -/
structure VfsOps (ν : Type) (m : Type → Type) where
  finddir : ν → List UInt8 → m (Option ν)
  create : ν → List UInt8 → ℕ → m (Option ν)

section Model

variable {ν : Type} {m : Type → Type} [Monad m]

/-- `kstrncmp(path + i, s, kstrlen(s)) == 0`. -/
def startsWith (rd : ℕ → m UInt8) : List UInt8 → ℕ → m Bool
  | [], _ => pure true
  | c :: s, i => do
    if (← rd i) = c then startsWith rd s (i + 1) else pure false

/-- One turn of the loop of `vfs_find_mount`: the longest mount point that the path lies
under wins, and of two equal ones the later. -/
def betterMount (rd : ℕ → m UInt8) (best : Option (Mount ν)) (mt : Mount ν) :
    m (Option (Mount ν)) := do
  let mlen := mt.mountpoint.length
  if ← startsWith rd mt.mountpoint 0 then
    let c ← rd mlen
    if (c = slash ∨ c = 0 ∨ mlen = 1) ∧ best.elim 0 (·.mountpoint.length) ≤ mlen then
      pure (some mt)
    else pure best
  else pure best

/-- `vfs_find_mount`. -/
def vfsFindMount (mounts : List (Mount ν)) (rd : ℕ → m UInt8) : m (Option (Mount ν)) :=
  mounts.foldlM (betterMount rd) none

/-- `while (*p == '/') p++`. -/
def skipSlashes (rd : ℕ → m UInt8) : ℕ → ℕ → m ℕ
  | 0, p => pure p
  | fuel + 1, p => do
    if (← rd p) = slash then skipSlashes rd fuel (p + 1) else pure p

/-- Copy a component to `comp`, which has room for `room` more characters; the result is the
component and where the path goes on.  The character at which the room ends is read too. -/
def readComp (rd : ℕ → m UInt8) : ℕ → ℕ → m (List UInt8 × ℕ)
  | 0, p => do
    let _ ← rd p
    pure ([], p)
  | room + 1, p => do
    let c ← rd p
    if c = 0 ∨ c = slash then pure ([], p)
    else
      let r ← readComp rd room (p + 1)
      pure (c :: r.1, r.2)

/-- `sizeof(comp) - 1`. -/
def compRoom : ℕ := 127

/-- The loop of `vfs_lookup` from the node `curr` and character `p` on. -/
def vfsWalk (ops : VfsOps ν m) (rd : ℕ → m UInt8) : ℕ → ν → ℕ → m (Option ν)
  | 0, _, _ => pure none
  | fuel + 1, curr, p => do
    if (← rd p) = 0 then pure (some curr)
    else
      let p ← skipSlashes rd fuel p
      if (← rd p) = 0 then pure (some curr)
      else
        let r ← readComp rd compRoom p
        match ← ops.finddir curr r.1 with
        | none => pure none
        | some next => vfsWalk ops rd fuel next r.2

/-- `vfs_lookup`.  The first test of the walk is that for a path that ends at its mount
point. -/
def vfsLookup (fuel : ℕ) (mounts : List (Mount ν)) (ops : VfsOps ν m) (rd : ℕ → m UInt8) :
    m (Option ν) := do
  match ← vfsFindMount mounts rd with
  | none => pure none
  | some mt =>
    let p ← skipSlashes rd fuel mt.mountpoint.length
    vfsWalk ops rd (fuel + 1) mt.root p

/-- The characters from `p` to the NUL. -/
def readStr (rd : ℕ → m UInt8) : ℕ → ℕ → m (List UInt8)
  | 0, _ => pure []
  | fuel + 1, p => do
    let c ← rd p
    if c = 0 then pure []
    else
      let s ← readStr rd fuel (p + 1)
      pure (c :: s)

/-- A string of the kernel, read character by character. -/
def strRead (s : List UInt8) (i : ℕ) : m UInt8 := pure (s.getD i 0)

/-- The part of a path before its last `/` (that `/` itself when nothing precedes it), and
the part after it.  A path without `/` is taken to lie in the root directory.  (`dirpath` has
128 bytes, and `vfs_open` copies the first part there whatever its length.) -/
def splitLast (path : List UInt8) : List UInt8 × List UInt8 :=
  let name := (path.reverse.takeWhile (· ≠ slash)).reverse
  if name.length = path.length then ([slash], path)
  else
    let dirlen := path.length - name.length - 1
    (path.take (if dirlen = 0 then 1 else dirlen), name)

/-- `vfs_open`, up to the reference it takes. -/
def vfsOpen (fuel : ℕ) (mounts : List (Mount ν)) (ops : VfsOps ν m) (rd : ℕ → m UInt8)
    (flags mode : ℕ) : m (Option ν) := do
  match ← vfsLookup fuel mounts ops rd with
  | some node => pure (some node)
  | none =>
    if flags.testBit 6 then
      let path ← readStr rd fuel 0
      match ← vfsLookup fuel mounts ops (strRead (splitLast path).1) with
      | none => pure none
      | some parent => ops.create parent (splitLast path).2 mode
    else pure none

end Model

/-! ## Paths that are strings -/

section Strings

variable {ν : Type} {m : Type → Type} [Monad m] [LawfulMonad m] {s : List UInt8}

/-- The first component of a path that does not start with `/`, as far as `comp` has room. -/
def firstComp (s : List UInt8) : List UInt8 := (s.takeWhile (· ≠ slash)).take compRoom

/-- The components of a path of at most `fuel` characters; one of 128 characters or more is
several of them. -/
def componentsUpTo : ℕ → List UInt8 → List (List UInt8)
  | 0, _ => []
  | fuel + 1, s =>
    let s := s.dropWhile (· = slash)
    if s = [] then []
    else firstComp s :: componentsUpTo fuel (s.drop (firstComp s).length)

/-- The components of a path. -/
def components (s : List UInt8) : List (List UInt8) := componentsUpTo (s.length + 1) s

/-- Find one name after another. -/
def walkNames (ops : VfsOps ν m) : ν → List (List UInt8) → m (Option ν)
  | curr, [] => pure (some curr)
  | curr, name :: names => do
    match ← ops.finddir curr name with
    | none => pure none
    | some next => walkNames ops next names

omit [LawfulMonad m] in
lemma walkNames_congr {ops ops' : VfsOps ν m} (h : ops.finddir = ops'.finddir) (curr : ν)
    (names : List (List UInt8)) : walkNames ops curr names = walkNames ops' curr names := by
  induction names generalizing curr with
  | nil => rfl
  | cons name names ih =>
    rw [walkNames, walkNames, h]
    refine bind_congr fun r => ?_
    cases r with
    | none => rfl
    | some next => exact ih next

/-- The mount a path lies under. -/
def mountOf (mounts : List (Mount ν)) (s : List UInt8) : Option (Mount ν) :=
  vfsFindMount (m := Id) mounts (strRead s)

lemma startsWith_strRead (t : List UInt8) (i : ℕ) :
    startsWith (m := m) (strRead s) t i = pure (startsWith (m := Id) (strRead s) t i) := by
  induction t generalizing i with
  | nil => rfl
  | cons c t ih =>
    simp only [startsWith, strRead, pure_bind]
    split
    · rw [ih]
    · rfl

lemma betterMount_strRead (best : Option (Mount ν)) (mt : Mount ν) :
    betterMount (m := m) (strRead s) best mt =
      pure (betterMount (m := Id) (strRead s) best mt) := by
  rw [betterMount, betterMount, startsWith_strRead (m := m)]
  simp only [strRead, pure_bind]
  generalize startsWith (m := Id) (strRead s) mt.mountpoint 0 = b
  cases b
  · rfl
  · by_cases h : (s.getD mt.mountpoint.length 0 = slash ∨ s.getD mt.mountpoint.length 0 = 0 ∨
        mt.mountpoint.length = 1) ∧
        best.elim 0 (fun b => b.mountpoint.length) ≤ mt.mountpoint.length
    · simp only [if_pos h]
      rfl
    · simp only [if_neg h]
      rfl

lemma vfsFindMount_strRead (mounts : List (Mount ν)) :
    vfsFindMount (m := m) mounts (strRead s) = pure (mountOf mounts s) := by
  rw [mountOf, vfsFindMount, vfsFindMount]
  generalize (none : Option (Mount ν)) = best
  induction mounts generalizing best with
  | nil => rfl
  | cons mt mounts ih =>
    rw [List.foldlM_cons, List.foldlM_cons, betterMount_strRead, pure_bind, ih]
    rfl

/-- With one file system, mounted at `/`, every absolute path lies under it. -/
lemma mountOf_root (root : ν) (t : List UInt8) :
    mountOf [⟨[slash], root⟩] (slash :: t) = some ⟨[slash], root⟩ := by
  have hone : ((slash :: t).getD 1 0 = slash ∨ (slash :: t).getD 1 0 = 0 ∨ [slash].length = 1) ∧
      (none : Option (Mount ν)).elim 0 (fun b => b.mountpoint.length) ≤ [slash].length :=
    ⟨Or.inr (Or.inr rfl), Nat.zero_le _⟩
  exact if_pos hone

lemma drop_eq_cons {p : ℕ} {c : UInt8} {t : List UInt8} (h : s.drop p = c :: t) :
    s.getD p 0 = c ∧ s.drop (p + 1) = t ∧ p < s.length := by
  have hlt : p < s.length := by
    by_contra hge
    rw [List.drop_eq_nil_of_le (by omega)] at h
    cases h
  rw [List.drop_eq_getElem_cons hlt] at h
  obtain ⟨hc, ht⟩ := List.cons.inj h
  exact ⟨by rw [List.getD_eq_getElem s 0 hlt, hc], ht, hlt⟩

lemma drop_eq_nil {p : ℕ} (h : s.drop p = []) : s.getD p 0 = 0 := by
  rw [List.getD_eq_default s 0 (List.drop_eq_nil_iff.mp h)]

lemma skipSlashes_strRead {fuel p : ℕ} (h : s.length ≤ p + fuel) :
    skipSlashes (m := m) (strRead s) fuel p =
      pure (p + ((s.drop p).takeWhile (· = slash)).length) := by
  induction fuel generalizing p with
  | zero => rw [skipSlashes, List.drop_eq_nil_of_le (by omega)]; rfl
  | succ fuel ih =>
    simp only [skipSlashes, strRead, pure_bind]
    rcases hd : s.drop p with _ | ⟨c, t⟩
    · rw [drop_eq_nil hd, if_neg (by decide)]
      rfl
    · obtain ⟨hc, ht, -⟩ := drop_eq_cons hd
      by_cases hs : c = slash
      · have hskip := ih (p := p + 1) (by omega)
        rw [hc, if_pos hs, hskip, ht, List.takeWhile_cons_of_pos (by simpa using hs),
          List.length_cons, show p + 1 + (t.takeWhile (· = slash)).length =
            p + ((t.takeWhile (· = slash)).length + 1) by omega]
      · rw [hc, if_neg hs, List.takeWhile_cons_of_neg (by simpa using hs)]
        rfl

lemma readComp_strRead (h0 : (0 : UInt8) ∉ s) (room p : ℕ) :
    readComp (m := m) (strRead s) room p =
      pure (((s.drop p).takeWhile (· ≠ slash)).take room,
        p + (((s.drop p).takeWhile (· ≠ slash)).take room).length) := by
  induction room generalizing p with
  | zero => simp only [readComp, strRead, pure_bind, List.take_zero]; rfl
  | succ room ih =>
    simp only [readComp]
    rw [ih (p + 1)]
    simp only [strRead, pure_bind]
    rcases hd : s.drop p with _ | ⟨c, t⟩
    · rw [drop_eq_nil hd, if_pos (Or.inl rfl)]
      rfl
    · obtain ⟨hc, ht, -⟩ := drop_eq_cons hd
      have hc0 : c ≠ 0 := by
        rintro rfl
        exact h0 (List.mem_of_mem_drop (hd ▸ List.mem_cons_self))
      rw [hc, ht]
      by_cases hs : c = slash
      · rw [if_pos (Or.inr hs), List.takeWhile_cons_of_neg (by simpa using hs)]
        rfl
      · rw [if_neg (by simp [hc0, hs]), List.takeWhile_cons_of_pos (by simpa using hs),
          List.take_succ_cons, List.length_cons, show
            p + 1 + ((t.takeWhile (· ≠ slash)).take room).length =
              p + (((t.takeWhile (· ≠ slash)).take room).length + 1) by omega]

lemma firstComp_length_pos {t : List UInt8} (hne : t.dropWhile (· = slash) ≠ []) :
    0 < (firstComp (t.dropWhile (· = slash))).length := by
  rcases hd : t.dropWhile (· = slash) with _ | ⟨c, r⟩
  · exact absurd hd hne
  · have hc : c ≠ slash := by
      have := List.head_dropWhile_not (p := (· = slash)) (l := t) (by simpa using hne)
      simpa [hd] using this
    rw [firstComp, List.takeWhile_cons_of_pos (by simpa using hc), compRoom, List.take_succ_cons]
    exact Nat.succ_pos _

lemma firstComp_length_le (t : List UInt8) : (firstComp t).length ≤ t.length :=
  (List.length_take_le' _ _).trans (List.takeWhile_sublist _).length_le

lemma length_drop_firstComp {t : List UInt8} (hne : t.dropWhile (· = slash) ≠ []) :
    ((t.dropWhile (· = slash)).drop (firstComp (t.dropWhile (· = slash))).length).length <
      t.length := by
  have hle : (t.dropWhile (· = slash)).length ≤ t.length :=
    (List.dropWhile_sublist _).length_le
  have hpos := firstComp_length_pos hne
  have hcomp := firstComp_length_le (t.dropWhile (· = slash))
  rw [List.length_drop]
  omega

lemma componentsUpTo_eq {fuel : ℕ} {t : List UInt8} (h : t.length < fuel) :
    componentsUpTo fuel t = components t := by
  suffices hall : ∀ n fuel fuel' (t : List UInt8), t.length ≤ n → t.length < fuel →
      t.length < fuel' → componentsUpTo fuel t = componentsUpTo fuel' t from
    hall t.length fuel (t.length + 1) t le_rfl h (by omega)
  intro n
  induction n with
  | zero =>
    intro fuel fuel' t ht hf hf'
    obtain ⟨a, rfl⟩ : ∃ a, fuel = a + 1 := ⟨fuel - 1, by omega⟩
    obtain ⟨b, rfl⟩ : ∃ b, fuel' = b + 1 := ⟨fuel' - 1, by omega⟩
    obtain rfl := List.length_eq_zero_iff.mp (Nat.le_zero.mp ht)
    rfl
  | succ n ih =>
    intro fuel fuel' t ht hf hf'
    obtain ⟨a, rfl⟩ : ∃ a, fuel = a + 1 := ⟨fuel - 1, by omega⟩
    obtain ⟨b, rfl⟩ : ∃ b, fuel' = b + 1 := ⟨fuel' - 1, by omega⟩
    simp only [componentsUpTo]
    by_cases hne : t.dropWhile (· = slash) = []
    · rw [if_pos hne, if_pos hne]
    · have hlt := length_drop_firstComp hne
      rw [if_neg hne, if_neg hne, ih a b _ (by omega) (by omega) (by omega)]

lemma components_dropWhile (t : List UInt8) :
    components (t.dropWhile (· = slash)) = components t := by
  have hle : (t.dropWhile (· = slash)).length ≤ t.length :=
    (List.dropWhile_sublist _).length_le
  have hfuel : componentsUpTo (t.length + 1) (t.dropWhile (· = slash)) =
      components (t.dropWhile (· = slash)) := componentsUpTo_eq (by omega)
  rw [← hfuel, components]
  simp only [componentsUpTo, List.dropWhile_idempotent]

lemma components_eq_cons {t : List UInt8} (hne : t.dropWhile (· = slash) ≠ []) :
    components t = firstComp (t.dropWhile (· = slash)) ::
      components ((t.dropWhile (· = slash)).drop
        (firstComp (t.dropWhile (· = slash))).length) := by
  rw [components, componentsUpTo]
  simp only [if_neg hne]
  rw [componentsUpTo_eq (length_drop_firstComp hne)]

lemma components_eq_nil {t : List UInt8} (h : t.dropWhile (· = slash) = []) :
    components t = [] := by
  rw [components, componentsUpTo]
  simp only [if_pos h]

lemma getD_eq_zero_iff (h0 : (0 : UInt8) ∉ s) (p : ℕ) : s.getD p 0 = 0 ↔ s.drop p = [] := by
  refine ⟨fun h => ?_, drop_eq_nil⟩
  rcases hd : s.drop p with _ | ⟨c, t⟩
  · rfl
  · rw [(drop_eq_cons hd).1] at h
    exact absurd (List.mem_of_mem_drop (hd ▸ List.mem_cons_self)) (h ▸ h0)

lemma drop_skipped (p : ℕ) :
    s.drop (p + ((s.drop p).takeWhile (· = slash)).length) = (s.drop p).dropWhile (· = slash) := by
  rw [← List.drop_drop]
  generalize s.drop p = t
  have h := @List.drop_left _ (t.takeWhile (· = slash)) (t.dropWhile (· = slash))
  rwa [List.takeWhile_append_dropWhile] at h

lemma vfsWalk_strRead (ops : VfsOps ν m) (h0 : (0 : UInt8) ∉ s) {fuel p : ℕ}
    (hfuel : s.length < p + fuel) (hp : p ≤ s.length) (curr : ν) :
    vfsWalk ops (strRead s) fuel curr p = walkNames ops curr (components (s.drop p)) := by
  induction fuel generalizing p curr with
  | zero => omega
  | succ fuel ih =>
    simp only [vfsWalk]
    rw [skipSlashes_strRead (by omega)]
    simp only [strRead, pure_bind, getD_eq_zero_iff h0, drop_skipped]
    by_cases hnil : s.drop p = []
    · rw [if_pos hnil, hnil]
      rfl
    rw [if_neg hnil]
    by_cases hrest : (s.drop p).dropWhile (· = slash) = []
    · rw [if_pos hrest, components_eq_nil hrest, walkNames]
    rw [if_neg hrest, components_eq_cons hrest, walkNames, readComp_strRead h0, drop_skipped,
      pure_bind]
    -- the walk goes on behind a component of at least one character
    have hpos := firstComp_length_pos hrest
    have hcomp := firstComp_length_le ((s.drop p).dropWhile (· = slash))
    have hlen := congrArg List.length (drop_skipped (s := s) p)
    rw [List.length_drop] at hlen
    refine bind_congr fun r => ?_
    cases r with
    | none => rfl
    | some next =>
      have hnext := ih (p := p + ((s.drop p).takeWhile (· = slash)).length +
        (firstComp ((s.drop p).dropWhile (· = slash))).length) (by omega) (by omega) next
      rwa [← List.drop_drop, drop_skipped] at hnext

lemma readStr_strRead (h0 : (0 : UInt8) ∉ s) {fuel p : ℕ} (hfuel : s.length ≤ p + fuel) :
    readStr (m := m) (strRead s) fuel p = pure (s.drop p) := by
  induction fuel generalizing p with
  | zero => rw [readStr, List.drop_eq_nil_of_le (by omega)]
  | succ fuel ih =>
    simp only [readStr]
    rw [ih (p := p + 1) (by omega)]
    simp only [strRead, pure_bind, getD_eq_zero_iff h0]
    rcases hd : s.drop p with _ | ⟨c, t⟩
    · rw [if_pos rfl]
    · obtain ⟨hc, ht, -⟩ := drop_eq_cons hd
      rw [if_neg (List.cons_ne_nil c t), hc, ht]

/-- **On a string, `vfs_lookup` is the walk** along the components of the path from the root of
its mount. -/
theorem vfsLookup_strRead (ops : VfsOps ν m) (mounts : List (Mount ν)) (h0 : (0 : UInt8) ∉ s)
    {fuel : ℕ} (hfuel : s.length ≤ fuel) :
    vfsLookup fuel mounts ops (strRead s) =
      match mountOf mounts s with
      | none => pure none
      | some mt => walkNames ops mt.root (components (s.drop mt.mountpoint.length)) := by
  rw [vfsLookup, vfsFindMount_strRead, pure_bind]
  cases mountOf mounts s with
  | none => rfl
  | some mt =>
    dsimp only
    rw [skipSlashes_strRead (by omega), pure_bind]
    by_cases hp : mt.mountpoint.length ≤ s.length
    · have hle := (List.takeWhile_sublist (p := (· = slash))
        (l := s.drop mt.mountpoint.length)).length_le
      rw [List.length_drop] at hle
      rw [vfsWalk_strRead ops h0 (by omega) (by omega), drop_skipped, components_dropWhile]
    · rw [List.drop_eq_nil_of_le (by omega)]
      simp only [vfsWalk, strRead, pure_bind]
      rw [if_pos (drop_eq_nil (List.drop_eq_nil_of_le (by omega)))]
      rfl

end Strings

end Bangos.Fs
