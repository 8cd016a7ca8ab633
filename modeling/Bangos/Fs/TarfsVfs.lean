import Bangos.Fs.Tarfs
import Bangos.Fs.Vfs

/-!
# The ramdisk as a file system (`kernel/fs/tarfs.c`)

The ramdisk is seen in two ways.  `tarfs_lookup` walks the archive and compares whole names,
up to leading dots and slashes and a leading `bin/`.  `tarfs_get_vfs_root` copies the names to a
flat table, and `vfs_lookup` asks that table for one component of the path after another.
-/

namespace Bangos.Fs

/-! ## The table of files -/

/-- The string at `a`, as far as its first `n` characters go. -/
def cStr (b : ℕ → UInt8) : ℕ → ℕ → List UInt8
  | 0, _ => []
  | n + 1, a => if b a = 0 then [] else b a :: cStr b n (a + 1)

/-- An entry of `tarfs_files`. -/
structure TarNode where
  name : List UInt8
  inode : ℕ
  size : ℕ
  /-- `priv_data`, as an offset into the archive. -/
  data : ℕ
deriving DecidableEq

/-- A regular file: type `'0'` or NUL. -/
def isRegular (b : ℕ → UInt8) (offset : ℕ) : Bool :=
  b (offset + 156) == 0x30 || b (offset + 156) == 0

/-- Where the header after the one at `offset` is expected. -/
def nextHeader (b : ℕ → UInt8) (offset : ℕ) : ℕ :=
  offset + 512 + (tarFileSize b offset + 511) / 512 * 512

/-- The table entry of the header at `offset`, as number `count`. -/
def tarNodeAt (r : Ramdisk) (offset count : ℕ) : TarNode where
  name := cStr r.bytes 127 (normalizeAt r.bytes r.size offset)
  inode := count + 10
  size := tarFileSize r.bytes offset
  data := offset + 512

/-- The loop of `tarfs_get_vfs_root`. -/
def tarfsFill (r : Ramdisk) : ℕ → ℕ → List TarNode → List TarNode
  | 0, _, files => files
  | fuel + 1, offset, files =>
    if offset + 512 ≤ r.size ∧ files.length < 64 then
      if r.bytes offset = 0 then files
      else
        tarfsFill r fuel (nextHeader r.bytes offset)
          (if isRegular r.bytes offset then files ++ [tarNodeAt r offset files.length] else files)
    else files

/-- `tarfs_get_vfs_root`: the entries of `tarfs_files`. -/
def tarfsGetVfsRoot (r : Ramdisk) : List TarNode :=
  if !r.loaded ∨ r.size < 512 then [] else tarfsFill r (r.size / 512 + 1) 0 []

/-- The nodes of the file system: `&tarfs_root` and the entries of the table. -/
inductive TarRef where
  | root
  | file (node : TarNode)
deriving DecidableEq

/-- `tarfs_dir_ops` and `tarfs_file_ops`: only the root has `finddir`, and nothing can be
created. -/
def tarfsOps (files : List TarNode) : VfsOps TarRef Id where
  finddir
    | .root, name => (files.find? fun node => node.name == name).map .file
    | .file _, _ => none
  create _ _ _ := none

/-- `vfs_lookup` with the ramdisk mounted at `/`. -/
def tarVfsLookup (r : Ramdisk) (path : List UInt8) : Option TarRef :=
  vfsLookup (m := Id) path.length [⟨[slash], .root⟩] (tarfsOps (tarfsGetVfsRoot r)) (strRead path)

/-- `priv_data` and `size` of a node; that of the root is null. -/
def TarRef.file? : TarRef → Option (ℕ × ℕ)
  | .root => none
  | .file node => some (node.data, node.size)

/-- Both ways to look a path up find a file, and the same one. -/
def ViewsAgree (r : Ramdisk) (path : List UInt8) : Prop :=
  ∃ node f, tarVfsLookup r path = some node ∧ node.file? = some f ∧ tarfsLookup r path = some f

/-! ## The members of an archive -/

/-- The offsets of the headers from `offset` on. -/
def tarHeaders (r : Ramdisk) : ℕ → ℕ → List ℕ
  | 0, _ => []
  | fuel + 1, offset =>
    if offset + 512 ≤ r.size ∧ r.bytes offset ≠ 0 then
      offset :: tarHeaders r fuel (nextHeader r.bytes offset)
    else []

/-- The offsets of the headers of the regular members. -/
def tarMembers (r : Ramdisk) : List ℕ :=
  if !r.loaded ∨ r.size < 512 then []
  else (tarHeaders r (r.size / 512 + 1) 0).filter (isRegular r.bytes)

/-- The name in the header at `h`. -/
def memberName (r : Ramdisk) (h : ℕ) : List UInt8 := cStr r.bytes 100 h

/-- At most 64 regular members, whose names have at most 99 bytes and stay different when they
are normalized. -/
structure SmallArchive (r : Ramdisk) : Prop where
  count : (tarMembers r).length ≤ 64
  names : ∀ h ∈ tarMembers r, (memberName r h).length ≤ 99
  nodup : ((tarMembers r).map fun h => normalizePath (memberName r h)).Nodup

/-! ## Strings in memory -/

section Strings

variable {b : ℕ → UInt8} {a : ℕ} {s t : List UInt8}

/-- The string `s` with its NUL lies at `a`. -/
def IsStr (b : ℕ → UInt8) : ℕ → List UInt8 → Prop
  | a, [] => b a = 0
  | a, c :: s => b a = c ∧ c ≠ 0 ∧ IsStr b (a + 1) s

lemma IsStr.no_nul (h : IsStr b a s) : (0 : UInt8) ∉ s := by
  induction s generalizing a with
  | nil => exact List.not_mem_nil
  | cons c s ih =>
    rw [List.mem_cons, not_or]
    exact ⟨fun h0 => h.2.1 h0.symm, ih h.2.2⟩

lemma isStr_cStr {n : ℕ} (h : (cStr b n a).length < n) : IsStr b a (cStr b n a) := by
  induction n generalizing a with
  | zero => omega
  | succ n ih =>
    rw [cStr] at h ⊢
    by_cases h0 : b a = 0
    · rw [if_pos h0]
      exact h0
    · rw [if_neg h0] at h ⊢
      rw [List.length_cons] at h
      exact ⟨rfl, h0, ih (by omega)⟩

lemma IsStr.cStr_eq {n : ℕ} (h : IsStr b a s) (hlen : s.length ≤ n) : cStr b n a = s := by
  induction s generalizing a n with
  | nil =>
    cases n with
    | zero => rfl
    | succ n => rw [cStr, if_pos (show b a = 0 from h)]
  | cons c s ih =>
    obtain ⟨hc, hc0, hs⟩ := h
    rw [List.length_cons] at hlen
    obtain ⟨n, rfl⟩ : ∃ k, n = k + 1 := ⟨n - 1, by omega⟩
    rw [cStr, hc, if_neg hc0, ih hs (by omega)]

lemma IsStr.strAt_iff (h : IsStr b a s) (ht : (0 : UInt8) ∉ t) : strAt b t a = true ↔ t = s := by
  induction t generalizing a s with
  | nil =>
    cases s with
    | nil => simpa [strAt] using (show b a = 0 from h)
    | cons c s => simpa [strAt, h.1] using h.2.1
  | cons d t ih =>
    rw [List.mem_cons, not_or] at ht
    cases s with
    | nil =>
      have h0 : b a = 0 := h
      simp [strAt, h0, ht.1]
    | cons c s =>
      rw [strAt, Bool.and_eq_true, ih h.2.2 ht.2, h.1, beq_iff_eq, List.cons.injEq, eq_comm]

lemma IsStr.normalizeAt {fuel : ℕ} (h : IsStr b a s) (hlen : s.length ≤ fuel) :
    IsStr b (normalizeAt b fuel a) (normalizePath s) := by
  induction s generalizing a fuel with
  | nil =>
    have h0 : b a = 0 := h
    cases fuel with
    | zero => exact h
    | succ fuel => rwa [Fs.normalizeAt, h0, if_neg (by decide)]
  | cons c s ih =>
    rw [List.length_cons] at hlen
    obtain ⟨fuel, rfl⟩ : ∃ k, fuel = k + 1 := ⟨fuel - 1, by omega⟩
    rw [Fs.normalizeAt, h.1, normalizePath]
    by_cases hpad : isPathPad c = true
    · rw [if_pos hpad, List.dropWhile_cons_of_pos hpad]
      exact ih h.2.2 (by omega)
    · rw [if_neg hpad, List.dropWhile_cons_of_neg hpad]
      exact h

/-- `bin/` is at the start of the string, and the rest follows. -/
lemma IsStr.bin_iff (h : IsStr b a s) (ht : (0 : UInt8) ∉ t) :
    (binAt b a && strAt b t (a + 4)) = true ↔ s = binDir ++ t := by
  constructor
  · intro hb
    simp only [binAt, Bool.and_eq_true, beq_iff_eq] at hb
    obtain ⟨⟨⟨⟨h0, h1⟩, h2⟩, h3⟩, hrest⟩ := hb
    -- the four characters are not NUL, so the string has them
    rcases s with _ | ⟨c0, _ | ⟨c1, _ | ⟨c2, _ | ⟨c3, s⟩⟩⟩⟩
    · exact absurd (h0.symm.trans h) (by decide)
    · exact absurd (h1.symm.trans h.2.2) (by decide)
    · exact absurd (h2.symm.trans h.2.2.2.2) (by decide)
    · exact absurd (h3.symm.trans h.2.2.2.2.2.2) (by decide)
    · obtain ⟨hc0, -, hc1, -, hc2, -, hc3, -, hs⟩ := h
      rw [hs.strAt_iff ht] at hrest
      rw [← hc0, ← hc1, ← hc2, ← hc3, h0, h1, h2, h3, hrest]
      rfl
  · rintro rfl
    obtain ⟨hc0, -, hc1, -, hc2, -, hc3, -, hs⟩ := h
    have hstr : IsStr b (a + 4) t := hs
    simp only [binAt, Bool.and_eq_true, beq_iff_eq]
    exact ⟨⟨⟨⟨hc0, hc1⟩, hc2⟩, hc3⟩, (hstr.strAt_iff ht).mpr rfl⟩

/-- The names that `path_matches` takes for the same, when they are normalized. -/
def SameFile (target entry : List UInt8) : Prop :=
  target = entry ∨ entry = binDir ++ target ∨ target = binDir ++ entry

lemma no_nul_normalizePath (ht : (0 : UInt8) ∉ t) : (0 : UInt8) ∉ normalizePath t :=
  fun h => ht ((List.dropWhile_sublist _).subset h)

lemma IsStr.pathMatches_iff {fuel : ℕ} (h : IsStr b a s) (hlen : s.length ≤ fuel)
    (ht : (0 : UInt8) ∉ t) :
    pathMatches b fuel t a = true ↔ SameFile (normalizePath t) (normalizePath s) := by
  have hentry := h.normalizeAt hlen
  have htarget := no_nul_normalizePath ht
  have hdrop : (0 : UInt8) ∉ (normalizePath t).drop 4 :=
    fun hmem => htarget (List.mem_of_mem_drop hmem)
  have hprefix : (binDir.isPrefixOf (normalizePath t) &&
      strAt b ((normalizePath t).drop 4) (Fs.normalizeAt b fuel a)) = true ↔
      normalizePath t = binDir ++ normalizePath s := by
    rw [Bool.and_eq_true, hentry.strAt_iff hdrop, List.isPrefixOf_iff_prefix]
    constructor
    · rintro ⟨⟨rest, hrest⟩, hd⟩
      rw [← hrest] at hd ⊢
      rw [← hd]
      rfl
    · intro heq
      rw [heq]
      exact ⟨List.prefix_append _ _, rfl⟩
  rw [pathMatches, Bool.or_eq_true, Bool.or_eq_true, hprefix, hentry.bin_iff htarget,
    hentry.strAt_iff htarget, SameFile, or_assoc]

end Strings

/-! ## Both views of the members -/

section Members

variable {r : Ramdisk}

lemma tarfsScan_eq (r : Ramdisk) (path : List UInt8) (fuel offset : ℕ) :
    tarfsScan r path fuel offset =
      ((tarHeaders r fuel offset).find? fun h =>
        isRegular r.bytes h && pathMatches r.bytes r.size path h).map
        fun h => (h + 512, tarFileSize r.bytes h) := by
  induction fuel generalizing offset with
  | zero => rfl
  | succ fuel ih =>
    rw [tarfsScan, tarHeaders]
    by_cases hend : offset + 512 ≤ r.size ∧ r.bytes offset ≠ 0
    · have hmatch : ((r.bytes (offset + 156) = 0x30 ∨ r.bytes (offset + 156) = 0) ∧
          pathMatches r.bytes r.size path offset = true) ↔
          (isRegular r.bytes offset && pathMatches r.bytes r.size path offset) = true := by
        rw [Bool.and_eq_true, isRegular, Bool.or_eq_true, beq_iff_eq, beq_iff_eq]
      rw [if_pos hend, if_pos hend, List.find?_cons]
      by_cases hm : (isRegular r.bytes offset && pathMatches r.bytes r.size path offset) = true
      · rw [if_pos (hmatch.mpr hm), hm]
        rfl
      · rw [if_neg fun h => hm (hmatch.mp h), Bool.eq_false_of_not_eq_true hm]
        exact ih _
    · rw [if_neg hend, if_neg hend]
      rfl

/-- `tarfs_lookup` takes the first regular member that matches. -/
lemma tarfsLookup_eq (r : Ramdisk) (path : List UInt8) :
    tarfsLookup r path =
      ((tarMembers r).find? fun h => pathMatches r.bytes r.size path h).map
        fun h => (h + 512, tarFileSize r.bytes h) := by
  rw [tarfsLookup, tarMembers]
  split
  · rfl
  · rw [tarfsScan_eq, List.find?_filter]
    simp only [Bool.decide_and, Bool.decide_eq_true]

/-- What both views say of a file: its name, where its data are and their size. -/
def TarNode.view (node : TarNode) : List UInt8 × ℕ × ℕ := (node.name, node.data, node.size)

/-- The entry of the table for the header at `h`. -/
def memberView (r : Ramdisk) (h : ℕ) : List UInt8 × ℕ × ℕ :=
  (cStr r.bytes 127 (normalizeAt r.bytes r.size h), h + 512, tarFileSize r.bytes h)

lemma tarfsFill_eq (r : Ramdisk) (fuel offset : ℕ) (files : List TarNode) :
    tarfsFill r fuel offset files = files ++
      (((tarHeaders r fuel offset).filter (isRegular r.bytes)).take (64 - files.length)).mapIdx
        fun k h => tarNodeAt r h (files.length + k) := by
  induction fuel generalizing offset files with
  | zero => simp [tarfsFill, tarHeaders]
  | succ fuel ih =>
    rw [tarfsFill, tarHeaders]
    by_cases hfull : files.length < 64
    · by_cases hend : offset + 512 ≤ r.size ∧ r.bytes offset ≠ 0
      · rw [if_pos hend, if_pos ⟨hend.1, hfull⟩, if_neg hend.2, ih]
        by_cases hreg : isRegular r.bytes offset = true
        · obtain ⟨n, hn⟩ : ∃ n, 64 - files.length = n + 1 := ⟨63 - files.length, by omega⟩
          have hroom : 64 - (files ++ [tarNodeAt r offset files.length]).length = n := by
            rw [List.length_append, List.length_singleton]
            omega
          rw [if_pos hreg, List.filter_cons_of_pos hreg, hroom, hn, List.take_succ_cons,
            List.mapIdx_cons, List.append_assoc, List.length_append, List.length_singleton]
          simp only [Nat.add_assoc, Nat.add_comm 1, Nat.add_zero, List.cons_append, List.nil_append]
        · rw [if_neg hreg, List.filter_cons_of_neg hreg]
      · rw [if_neg hend, List.filter_nil, List.take_nil, List.mapIdx_nil, List.append_nil]
        by_cases hsize : offset + 512 ≤ r.size ∧ files.length < 64
        · rw [if_pos hsize, if_pos (not_not.mp fun h0 => hend ⟨hsize.1, h0⟩)]
        · rw [if_neg hsize]
    · -- the table is full
      rw [if_neg fun h => hfull h.2, Nat.sub_eq_zero_of_le (by omega), List.take_zero,
        List.mapIdx_nil, List.append_nil]

/-- The table has the first 64 regular members in order. -/
lemma tarfsGetVfsRoot_eq (r : Ramdisk) :
    tarfsGetVfsRoot r = ((tarMembers r).take 64).mapIdx fun k h => tarNodeAt r h k := by
  rw [tarfsGetVfsRoot, tarMembers]
  split
  · rfl
  · rw [tarfsFill_eq]
    simp only [List.nil_append, List.length_nil, Nat.sub_zero, Nat.zero_add]

lemma tarfsGetVfsRoot_view (hcount : (tarMembers r).length ≤ 64) :
    (tarfsGetVfsRoot r).map TarNode.view = (tarMembers r).map (memberView r) := by
  have hview : ∀ k h, (tarNodeAt r h k).view = memberView r h := fun k h => rfl
  rw [tarfsGetVfsRoot_eq, List.take_of_length_le hcount]
  apply List.ext_getElem
  · rw [List.length_map, List.length_mapIdx, List.length_map]
  · intro k hk hk'
    rw [List.getElem_map, List.getElem_mapIdx, List.getElem_map, hview]

lemma size_of_mem_tarMembers {h : ℕ} (hh : h ∈ tarMembers r) : 512 ≤ r.size := by
  rw [tarMembers] at hh
  split at hh
  · cases hh
  · rename_i hsmall
    simp only [not_or, not_lt] at hsmall
    exact hsmall.2

lemma tarHeaders_sorted (r : Ramdisk) (fuel offset : ℕ) :
    (∀ h ∈ tarHeaders r fuel offset, offset ≤ h) ∧
      (tarHeaders r fuel offset).Pairwise (· < ·) := by
  induction fuel generalizing offset with
  | zero => exact ⟨fun h hh => absurd hh List.not_mem_nil, List.Pairwise.nil⟩
  | succ fuel ih =>
    rw [tarHeaders]
    split
    · obtain ⟨hge, hpair⟩ := ih (nextHeader r.bytes offset)
      have hnext : offset < nextHeader r.bytes offset := by
        rw [nextHeader]
        omega
      refine ⟨fun h hh => ?_, List.pairwise_cons.mpr ⟨fun h hh => hnext.trans_le (hge h hh), hpair⟩⟩
      rcases List.mem_cons.mp hh with rfl | hh
      · exact le_rfl
      · exact hnext.le.trans (hge h hh)
    · exact ⟨fun h hh => absurd hh List.not_mem_nil, List.Pairwise.nil⟩

lemma tarMembers_sorted (r : Ramdisk) : (tarMembers r).Pairwise (· < ·) := by
  rw [tarMembers]
  split
  · exact List.Pairwise.nil
  · exact (tarHeaders_sorted r _ _).2.filter _

end Members

/-! ## Looking up a component -/

lemma tarVfsLookup_eq (r : Ramdisk) {p : List UInt8} (h0 : (0 : UInt8) ∉ p) :
    tarVfsLookup r (slash :: p) =
      walkNames (m := Id) (tarfsOps (tarfsGetVfsRoot r)) .root (components p) := by
  have hpath : (0 : UInt8) ∉ slash :: p := by
    rw [List.mem_cons, not_or]
    exact ⟨by decide, h0⟩
  rw [tarVfsLookup, vfsLookup_strRead _ _ hpath le_rfl, mountOf_root]
  rfl

lemma walkNames_tarfsOps (files : List TarNode) (names : List (List UInt8)) :
    walkNames (m := Id) (tarfsOps files) .root names =
      match names with
      | [] => some .root
      | [name] => (files.find? fun node => node.name == name).map .file
      | _ => none := by
  rcases names with _ | ⟨name, names⟩
  · rfl
  · have hdir : (tarfsOps files).finddir .root name =
        (files.find? fun node => node.name == name).map .file := rfl
    rw [walkNames, hdir]
    cases names with
    | nil =>
      dsimp only
      generalize files.find? (fun node => node.name == name) = found
      cases found <;> rfl
    | cons name' names =>
      generalize files.find? (fun node => node.name == name) = found
      cases found <;> rfl

lemma components_eq_singleton {p c : List UInt8} :
    components p = [c] ↔ p.dropWhile (· = slash) ≠ [] ∧ c = firstComp (p.dropWhile (· = slash)) ∧
      ((p.dropWhile (· = slash)).drop c.length).dropWhile (· = slash) = [] := by
  by_cases hne : p.dropWhile (· = slash) = []
  · rw [components_eq_nil hne]
    simp [hne]
  · rw [components_eq_cons hne, List.cons.injEq]
    constructor
    · rintro ⟨rfl, hrest⟩
      refine ⟨hne, rfl, not_not.mp fun hmore => ?_⟩
      rw [components_eq_cons hmore] at hrest
      cases hrest
    · rintro ⟨-, rfl, hrest⟩
      exact ⟨rfl, components_eq_nil hrest⟩

section Agreement

variable {r : Ramdisk} {h : ℕ}

/-- The normalized name of a member. -/
def normName (r : Ramdisk) (h : ℕ) : List UInt8 := normalizePath (memberName r h)

/-- The name of a member without leading slashes. -/
def bareName (r : Ramdisk) (h : ℕ) : List UInt8 := (memberName r h).dropWhile (· = slash)

lemma SmallArchive.isStr (hr : SmallArchive r) (hh : h ∈ tarMembers r) :
    IsStr r.bytes h (memberName r h) :=
  isStr_cStr (Nat.lt_succ_of_le (hr.names h hh))

lemma SmallArchive.memberView_eq (hr : SmallArchive r) (hh : h ∈ tarMembers r) :
    memberView r h = (normName r h, h + 512, tarFileSize r.bytes h) := by
  have hlen := hr.names h hh
  have hsize := size_of_mem_tarMembers hh
  have hnorm : (normName r h).length ≤ (memberName r h).length :=
    (List.dropWhile_sublist _).length_le
  rw [memberView, ((hr.isStr hh).normalizeAt (by omega)).cStr_eq (n := 127)]
  · rfl
  · exact hnorm.trans (by omega)

lemma SmallArchive.find_eq (hr : SmallArchive r) (c : List UInt8) :
    ((tarfsGetVfsRoot r).find? fun node => node.name == c).map (fun node => (node.data, node.size)) =
      ((tarMembers r).find? fun h => normName r h == c).map
        fun h => (h + 512, tarFileSize r.bytes h) := by
  have hview := tarfsGetVfsRoot_view hr.count
  rw [List.map_congr_left fun h hh => hr.memberView_eq hh] at hview
  have hfind := congrArg (fun l => (l.find? fun v => v.1 == c).map Prod.snd) hview
  simp only [List.find?_map, Option.map_map] at hfind
  exact hfind

lemma SmallArchive.tarfsLookup_eq (hr : SmallArchive r) (hh : h ∈ tarMembers r) :
    ∃ q : ℕ → Bool, (∀ h' ∈ tarMembers r, q h' = true ↔ SameFile (normName r h) (normName r h')) ∧
      tarfsLookup r (slash :: memberName r h) =
        ((tarMembers r).find? q).map fun h => (h + 512, tarFileSize r.bytes h) := by
  refine ⟨_, fun h' hh' => ?_, Fs.tarfsLookup_eq r _⟩
  have hlen := hr.names h' hh'
  have hsize := size_of_mem_tarMembers hh'
  rw [(hr.isStr hh').pathMatches_iff (by omega)]
  · rfl
  · rw [List.mem_cons, not_or]
    exact ⟨by decide, (hr.isStr hh).no_nul⟩

/-- The views agree when the path is one component and both searches stop at one member. -/
lemma SmallArchive.viewsAgree_iff_find (hr : SmallArchive r) (hh : h ∈ tarMembers r)
    {q : ℕ → Bool} (hq : tarfsLookup r (slash :: memberName r h) =
      ((tarMembers r).find? q).map fun h => (h + 512, tarFileSize r.bytes h)) :
    ViewsAgree r (slash :: memberName r h) ↔
      ∃ c m, components (memberName r h) = [c] ∧
        (tarMembers r).find? (fun h => normName r h == c) = some m ∧
        (tarMembers r).find? q = some m := by
  rw [ViewsAgree, tarVfsLookup_eq r (hr.isStr hh).no_nul, walkNames_tarfsOps, hq]
  constructor
  · rintro ⟨node, f, hnode, hf, hl⟩
    obtain ⟨m', hm', rfl⟩ := Option.map_eq_some_iff.mp hl
    rcases hcomp : components (memberName r h) with _ | ⟨c, _ | ⟨c', cs⟩⟩
    · rw [hcomp] at hnode
      obtain rfl := Option.some.inj hnode
      cases hf
    · rw [hcomp] at hnode
      obtain ⟨n, hn, rfl⟩ := Option.map_eq_some_iff.mp hnode
      have hfind := hr.find_eq c
      rw [hn] at hfind
      obtain ⟨m, hm, hfm⟩ := Option.map_eq_some_iff.mp hfind.symm
      have hsame := Prod.ext_iff.mp (hfm.trans (Option.some.inj hf))
      obtain rfl : m = m' := by
        have hdata : m + 512 = m' + 512 := hsame.1
        omega
      exact ⟨c, m, rfl, hm, hm'⟩
    · rw [hcomp] at hnode
      cases hnode
  · rintro ⟨c, m, hcomp, hm, hm'⟩
    have hfind := hr.find_eq c
    rw [hm] at hfind
    obtain ⟨n, hn, hfn⟩ := Option.map_eq_some_iff.mp hfind
    refine ⟨.file n, (m + 512, tarFileSize r.bytes m), ?_, congrArg some hfn, ?_⟩
    · rw [hcomp]
      dsimp only
      rw [hn]
      rfl
    · rw [hm']
      rfl

lemma normName_eq_bareName (hdot : (bareName r h).head? ≠ some 0x2E) :
    normName r h = bareName r h := by
  rw [normName, bareName] at *
  generalize memberName r h = p at *
  induction p with
  | nil => rfl
  | cons c p ih =>
    by_cases hs : c = slash
    · rw [List.dropWhile_cons_of_pos (by simpa using hs)] at hdot ⊢
      rw [normalizePath, List.dropWhile_cons_of_pos (by rw [hs]; rfl)]
      exact ih hdot
    · rw [List.dropWhile_cons_of_neg (by simpa using hs)] at hdot ⊢
      rw [List.head?_cons] at hdot
      refine List.dropWhile_cons_of_neg ?_
      simp only [isPathPad, Bool.or_eq_true, beq_iff_eq, not_or]
      exact ⟨hs, fun hc => hdot (congrArg some hc)⟩

lemma head_normalizePath (p : List UInt8) : (normalizePath p).head? ≠ some 0x2E := by
  intro hhead
  have hpad := List.head?_dropWhile_not isPathPad p
  rw [normalizePath] at hhead
  rw [hhead] at hpad
  exact absurd hpad (by decide)

lemma find?_eq_some_of_sorted {l : List ℕ} (hl : l.Pairwise (· < ·)) {q : ℕ → Bool} :
    l.find? q = some h ↔ h ∈ l ∧ q h = true ∧ ∀ h' ∈ l, h' < h → q h' = false := by
  constructor
  · intro hfind
    obtain ⟨hqh, l₁, l₂, rfl, hbefore⟩ := List.find?_eq_some_iff_append.mp hfind
    refine ⟨by simp, hqh, fun h' hh' hlt => ?_⟩
    have hafter := List.pairwise_cons.mp (List.pairwise_append.mp hl).2.1
    rcases List.mem_append.mp hh' with hin | hin
    · simpa using hbefore h' hin
    · rcases List.mem_cons.mp hin with rfl | hin
      · omega
      · have := hafter.1 h' hin
        omega
  · rintro ⟨hh, hqh, hfirst⟩
    obtain ⟨l₁, l₂, rfl⟩ := List.append_of_mem hh
    refine List.find?_eq_some_iff_append.mpr ⟨hqh, l₁, l₂, rfl, fun h' hin => ?_⟩
    have hlt := (List.pairwise_append.mp hl).2.2 h' hin h List.mem_cons_self
    rw [hfirst h' (List.mem_append_left _ hin) hlt]
    rfl

/-- The members that both views find: the name, without leading slashes, is a single component
that does not start with a dot, and no earlier member is called `bin/` and then the same. -/
structure PlainMember (r : Ramdisk) (h : ℕ) : Prop where
  nonempty : bareName r h ≠ []
  flat : slash ∉ bareName r h
  noDot : (bareName r h).head? ≠ some 0x2E
  first : ∀ h' ∈ tarMembers r, h' < h → normName r h' ≠ binDir ++ bareName r h

lemma firstComp_of_short {p : List UInt8} (hlen : p.length ≤ 127) :
    firstComp p = p.takeWhile (· ≠ slash) :=
  List.take_of_length_le ((List.takeWhile_sublist _).length_le.trans hlen)

lemma SmallArchive.bareName_length (hr : SmallArchive r) (hh : h ∈ tarMembers r) :
    (bareName r h).length ≤ 127 :=
  ((List.dropWhile_sublist _).length_le.trans (hr.names h hh)).trans (by omega)

lemma eq_of_sameFile {p c : List UInt8} (hc : c = p.takeWhile (· ≠ slash))
    (hrest : (p.drop c.length).dropWhile (· = slash) = []) (h : SameFile p c) : p = c := by
  have hflat : slash ∉ c := by
    rw [hc]
    intro hmem
    simpa using List.mem_takeWhile_imp hmem
  rcases h with h | h | h
  · exact h
  · exact absurd (h ▸ List.mem_append_left _ (by decide)) hflat
  · -- then the name would be `bin/bin`
    rw [h] at hc
    obtain rfl : c = [0x62, 0x69, 0x6E] := hc
    rw [h] at hrest
    exact absurd hrest (by decide)

lemma SmallArchive.plainMember (hr : SmallArchive r) (hh : h ∈ tarMembers r) {q : ℕ → Bool}
    (hq : ∀ h' ∈ tarMembers r, q h' = true ↔ SameFile (normName r h) (normName r h'))
    {c : List UInt8} {m : ℕ} (hcomp : components (memberName r h) = [c])
    (hm : (tarMembers r).find? (fun h => normName r h == c) = some m)
    (hm' : (tarMembers r).find? q = some m) : PlainMember r h := by
  obtain ⟨hne, hfirst, hrest⟩ : bareName r h ≠ [] ∧ c = firstComp (bareName r h) ∧
      ((bareName r h).drop c.length).dropWhile (· = slash) = [] :=
    components_eq_singleton.mp hcomp
  rw [firstComp_of_short (hr.bareName_length hh)] at hfirst
  obtain ⟨hmem, hname, -⟩ := (find?_eq_some_of_sorted (tarMembers_sorted r)).mp hm
  obtain ⟨-, hsame, hearlier⟩ := (find?_eq_some_of_sorted (tarMembers_sorted r)).mp hm'
  rw [beq_iff_eq] at hname
  -- the component is a name of the table, so it does not start with a dot
  have hdot : (bareName r h).head? ≠ some 0x2E := by
    intro hhead
    refine head_normalizePath (memberName r m) ?_
    change (normName r m).head? = _
    rw [hname, hfirst]
    rcases hp : bareName r h with _ | ⟨x, p⟩
    · exact absurd hp hne
    · rw [hp] at hhead
      obtain rfl := Option.some.inj hhead
      rfl
  have hnorm := normName_eq_bareName hdot
  rw [hq m hmem, hname, hnorm] at hsame
  have hbare := eq_of_sameFile hfirst hrest hsame
  -- the names of the archive are different, so the member found is this one
  obtain rfl : m = h := List.inj_on_of_nodup_map hr.nodup hmem hh
    (hname.trans (hbare.symm.trans hnorm.symm))
  refine ⟨hne, ?_, hdot, fun h' hh' hlt hbin => ?_⟩
  · rw [hbare, hfirst]
    intro hmem
    simpa using List.mem_takeWhile_imp hmem
  · have hno := hearlier h' hh' hlt
    rw [← Bool.not_eq_true, hq h' hh', hnorm] at hno
    exact hno (Or.inr (Or.inl hbin))

lemma PlainMember.find (hp : PlainMember r h) (hr : SmallArchive r) (hh : h ∈ tarMembers r)
    {q : ℕ → Bool}
    (hq : ∀ h' ∈ tarMembers r, q h' = true ↔ SameFile (normName r h) (normName r h')) :
    components (memberName r h) = [bareName r h] ∧
      (tarMembers r).find? (fun h' => normName r h' == bareName r h) = some h ∧
      (tarMembers r).find? q = some h := by
  have hnorm := normName_eq_bareName hp.noDot
  have hother : ∀ h' ∈ tarMembers r, h' < h → normName r h' ≠ bareName r h := by
    intro h' hh' hlt heq
    have := List.inj_on_of_nodup_map hr.nodup hh' hh (heq.trans hnorm.symm)
    omega
  refine ⟨components_eq_singleton.mpr ⟨hp.nonempty, ?_, ?_⟩, ?_, ?_⟩
  · change bareName r h = firstComp (bareName r h)
    rw [firstComp_of_short (hr.bareName_length hh), List.takeWhile_eq_self_iff.mpr]
    intro x hx
    have hxs : x ≠ slash := fun hxs => hp.flat (hxs ▸ hx)
    simpa using hxs
  · exact congrArg (List.dropWhile (· = slash)) (List.drop_length (l := bareName r h))
  · refine (find?_eq_some_of_sorted (tarMembers_sorted r)).mpr
      ⟨hh, by rw [hnorm, beq_self_eq_true], fun h' hh' hlt => ?_⟩
    rw [beq_eq_false_iff_ne]
    exact hother h' hh' hlt
  · refine (find?_eq_some_of_sorted (tarMembers_sorted r)).mpr
      ⟨hh, (hq h hh).mpr (Or.inl rfl), fun h' hh' hlt => ?_⟩
    rw [← Bool.not_eq_true, hq h' hh', hnorm]
    rintro (hsame | hbin | hbin)
    · exact hother h' hh' hlt hsame.symm
    · exact hp.first h' hh' hlt hbin
    · exact hp.flat (hbin ▸ List.mem_append_left _ (by decide))

end Agreement

/-- **When the two views of the ramdisk agree.**  In a small archive, `vfs_lookup` and
`tarfs_lookup` of `/` and the name of a regular member lead to the same file exactly if the
member is plain. -/
theorem viewsAgree_iff (r : Ramdisk) (hr : SmallArchive r) (h : ℕ) (hh : h ∈ tarMembers r) :
    ViewsAgree r (slash :: memberName r h) ↔ PlainMember r h := by
  obtain ⟨q, hq, hlookup⟩ := hr.tarfsLookup_eq hh
  rw [hr.viewsAgree_iff_find hh hlookup]
  constructor
  · rintro ⟨c, m, hcomp, hm, hm'⟩
    exact hr.plainMember hh hq hcomp hm hm'
  · intro hp
    exact ⟨_, h, hp.find hr hh hq⟩

/-- A field of `n` bytes, filled up with NUL. -/
def field (n : ℕ) (s : List UInt8) : List UInt8 := s ++ List.replicate (n - s.length) 0

/-- An archive of one regular file with the contents `hi`. -/
def oneFile (name chksum : String) : Ramdisk where
  bytes := fun x =>
    (field 100 (ascii name) ++ field 8 (ascii "0000644") ++ field 8 (ascii "0000000") ++
      field 8 (ascii "0000000") ++ field 12 (ascii "00000000002") ++
      field 12 (ascii "00000000000") ++ field 8 (ascii chksum) ++ ascii "0" ++ field 100 [] ++
      field 6 (ascii "ustar") ++ ascii "00" ++ field 247 [] ++ ascii "hi").getD x 0
  size := 2048
  loaded := true

theorem viewsAgree_iff_init :
    ViewsAgree (oneFile "init" "006623") (ascii "/init") :=
  (viewsAgree_iff (oneFile "init" "006623")
    ⟨by decide +kernel, by decide +kernel, by decide +kernel⟩ 0 (by decide +kernel)).mpr
    ⟨by decide +kernel, by decide +kernel, by decide +kernel, by decide +kernel⟩

/-- The file `bin/sh` of a ramdisk is found by `tarfs_lookup`, and not through the mounted
ramdisk: the table has no entry `bin`. -/
theorem views_differ :
    SmallArchive (oneFile "bin/sh" "007042") ∧ 0 ∈ tarMembers (oneFile "bin/sh" "007042") ∧
      memberName (oneFile "bin/sh" "007042") 0 = ascii "bin/sh" ∧
      tarfsLookup (oneFile "bin/sh" "007042") (ascii "/bin/sh") = some (512, 2) ∧
      ¬ ViewsAgree (oneFile "bin/sh" "007042") (ascii "/bin/sh") := by
  have hnone : tarVfsLookup (oneFile "bin/sh" "007042") (ascii "/bin/sh") = none := by
    decide +kernel
  refine ⟨⟨by decide +kernel, by decide +kernel, by decide +kernel⟩, by decide +kernel,
    by decide +kernel, by decide +kernel, ?_⟩
  rintro ⟨node, f, hnode, -, -⟩
  rw [hnone] at hnode
  cases hnode

end Bangos.Fs
