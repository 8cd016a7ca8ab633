import Bangos.Fs.TarfsVfs
import Bangos.Lib.ByteMem

/-!
# USTAR archives and the two walks through them (`kernel/fs/tarfs.c`)

What the archiver writes: for each member a header block with the size in octal, then the content
filled up to whole blocks, and at the end a block of zeros.  Both walks find the next header from
the size in the current one, so they agree with the list of members only if every size is read back
exactly.
-/

namespace Bangos.Fs

open ByteMem

/-! ## Bytes in place -/

section LiesAt

variable {b : ℕ → UInt8} {a : ℕ} {l l' : List UInt8}

/-- The bytes `l` lie at address `a`. -/
def LiesAt (b : ℕ → UInt8) (a : ℕ) (l : List UInt8) : Prop := load b a l.length = l

lemma liesAt_append :
    LiesAt b a (l ++ l') ↔ LiesAt b a l ∧ LiesAt b (a + l.length) l' := by
  rw [LiesAt, List.length_append, load_add]
  constructor
  · intro h
    exact List.append_inj h (length_load _ _ _)
  · rintro ⟨h, h'⟩
    rw [h, h']

lemma liesAt_cons {c : UInt8} : LiesAt b a (c :: l) ↔ b a = c ∧ LiesAt b (a + 1) l := by
  have hone : LiesAt b a [c] ↔ b a = c := by
    simp [LiesAt, load]
  rw [← List.singleton_append, liesAt_append, hone]
  rfl

lemma LiesAt.isStr {s : List UInt8} (h : LiesAt b a s) (h0 : (0 : UInt8) ∉ s)
    (hend : b (a + s.length) = 0) : IsStr b a s := by
  induction s generalizing a with
  | nil => exact hend
  | cons c s ih =>
    rw [List.mem_cons, not_or] at h0
    rw [liesAt_cons] at h
    refine ⟨h.1, fun hc => h0.1 hc.symm, ih h.2 h0.2 ?_⟩
    rwa [List.length_cons, Nat.add_comm s.length, ← Nat.add_assoc] at hend

lemma liesAt_getD (l : List UInt8) : LiesAt (fun i => l.getD i 0) 0 l := by
  apply List.ext_getElem
  · rw [length_load]
  · intro i hi hi'
    simp [load, hi']

end LiesAt

/-! ## The archive -/

/-- The last `w` octal digits of `n`. -/
def octal : ℕ → ℕ → List UInt8
  | 0, _ => []
  | w + 1, n => UInt8.ofNat (0x30 + n / 8 ^ w % 8) :: octal w n

@[simp] lemma length_octal (w n : ℕ) : (octal w n).length = w := by
  induction w with
  | zero => rfl
  | succ w ih => rw [octal, List.length_cons, ih]

/-- A member of an archive.  The header fields that the walks do not read are arbitrary, apart from
their widths and the empty prefix. -/
structure Member where
  name : List UInt8
  typeflag : UInt8
  content : List UInt8
  /-- `mode`, `uid` and `gid`. -/
  owner : List UInt8
  /-- The byte after the digits of the size. -/
  sizeEnd : UInt8
  /-- `mtime` and `chksum`. -/
  stamp : List UInt8
  /-- `linkname`, `magic`, `version`, `uname`, `gname`, `devmajor` and `devminor`. -/
  link : List UInt8
  name_pos : 1 ≤ name.length
  name_le : name.length ≤ 99
  name_no_nul : (0 : UInt8) ∉ name
  content_lt : content.length < 8 ^ 11
  owner_length : owner.length = 24
  sizeEnd_blank : sizeEnd = 0 ∨ sizeEnd = 0x20
  stamp_length : stamp.length = 20
  link_length : link.length = 188

namespace Member

/-- The fields of the header up to the type. -/
def headerStart (m : Member) : List UInt8 :=
  m.name ++ List.replicate (100 - m.name.length) 0 ++ m.owner ++
    (octal 11 m.content.length ++ [m.sizeEnd]) ++ m.stamp

/-- The header block; `prefix` and `pad` are zero. -/
def header (m : Member) : List UInt8 :=
  m.headerStart ++ m.typeflag :: (m.link ++ List.replicate (155 + 12) 0)

/-- How many bytes fill up the last block of the content. -/
def padding (m : Member) : ℕ := (512 - m.content.length % 512) % 512

/-- The member in the archive. -/
def bytes (m : Member) : List UInt8 := m.header ++ m.content ++ List.replicate m.padding 0

/-- A regular file: type `'0'` or NUL. -/
def isRegular (m : Member) : Bool := m.typeflag == 0x30 || m.typeflag == 0

/-- `path_matches` of a path with the name of the member. -/
def matchedBy (path : List UInt8) (m : Member) : Bool :=
  pathMatches (fun i => m.name.getD i 0) m.name.length path 0

@[simp] lemma length_headerStart (m : Member) : m.headerStart.length = 156 := by
  have hname := m.name_le
  simp only [headerStart, List.length_append, List.length_replicate, length_octal,
    List.length_singleton, m.owner_length, m.stamp_length]
  omega

@[simp] lemma length_header (m : Member) : m.header.length = 512 := by
  simp only [header, List.length_append, List.length_cons, length_headerStart,
    List.length_replicate, m.link_length]

lemma length_bytes (m : Member) :
    m.bytes.length = 512 + (m.content.length + 511) / 512 * 512 := by
  simp only [bytes, List.length_append, length_header, List.length_replicate, padding]
  omega

end Member

/-- The archive with these members: after the closing block of zeros anything may follow. -/
def serialize (ms : List Member) (rest : List UInt8) : List UInt8 :=
  ms.flatMap Member.bytes ++ (List.replicate 512 0 ++ rest)

/-- The ramdisk holds this archive; what follows it in memory is arbitrary. -/
structure Archived (r : Ramdisk) (archive : List UInt8) : Prop where
  loaded : r.loaded = true
  size : r.size = archive.length
  lies : LiesAt r.bytes 0 archive

/-! ## Reading a header -/

section Header

variable {b : ℕ → UInt8} {a : ℕ} {m : Member}

lemma parseOctal_octal {w n : ℕ} (val k : ℕ) (h : LiesAt b a (octal w n))
    (hend : b (a + w) < 0x30 ∨ 0x37 < b (a + w)) :
    parseOctal b a (w + (k + 1)) val = val * 8 ^ w + n % 8 ^ w := by
  have hdigit : ∀ d < 8, ¬ (UInt8.ofNat (0x30 + d) < 0x30 ∨ 0x37 < UInt8.ofNat (0x30 + d)) ∧
      (UInt8.ofNat (0x30 + d)).toNat - 0x30 = d := by decide
  induction w generalizing a val with
  | zero =>
    rw [Nat.add_zero] at hend
    rw [Nat.zero_add, parseOctal, if_pos hend, pow_zero, Nat.mod_one, Nat.mul_one, Nat.add_zero]
  | succ w ih =>
    rw [octal, liesAt_cons] at h
    obtain ⟨hd, hval⟩ := hdigit (n / 8 ^ w % 8) (Nat.mod_lt _ (by omega))
    have hrest : b (a + 1 + w) < 0x30 ∨ 0x37 < b (a + 1 + w) := by
      rwa [Nat.add_assoc, Nat.add_comm 1]
    rw [Nat.add_right_comm, parseOctal, h.1, if_neg hd, hval, ih _ h.2 hrest, Nat.mod_pow_succ, pow_succ']
    ring

lemma LiesAt.header (h : LiesAt b a m.bytes) : LiesAt b a m.header :=
  (liesAt_append.mp (liesAt_append.mp h).1).1

lemma LiesAt.content (h : LiesAt b a m.bytes) : LiesAt b (a + 512) m.content := by
  have hcontent := (liesAt_append.mp (liesAt_append.mp h).1).2
  rwa [Member.length_header] at hcontent

lemma LiesAt.typeflag (h : LiesAt b a m.bytes) : b (a + 156) = m.typeflag := by
  have hrest := (liesAt_append.mp h.header).2
  rw [Member.length_headerStart, liesAt_cons] at hrest
  exact hrest.1

lemma LiesAt.isRegular (h : LiesAt b a m.bytes) : Fs.isRegular b a = m.isRegular := by
  rw [Fs.isRegular, h.typeflag]
  rfl

lemma LiesAt.name (h : LiesAt b a m.bytes) : IsStr b a m.name := by
  have hname := m.name_le
  have hstart := (liesAt_append.mp h.header).1
  simp only [Member.headerStart, liesAt_append] at hstart
  obtain ⟨⟨⟨⟨hstr, hzeros⟩, -⟩, -⟩, -⟩ := hstart
  obtain ⟨n, hn⟩ : ∃ n, 100 - m.name.length = n + 1 := ⟨99 - m.name.length, by omega⟩
  rw [hn, List.replicate_succ, liesAt_cons] at hzeros
  exact hstr.isStr m.name_no_nul hzeros.1

lemma LiesAt.ne_zero (h : LiesAt b a m.bytes) : b a ≠ 0 := by
  have hstr := h.name
  have hpos := m.name_pos
  cases hname : m.name with
  | nil =>
    rw [hname] at hpos
    exact absurd hpos (by decide)
  | cons c s =>
    rw [hname] at hstr
    rw [hstr.1]
    exact hstr.2.1

lemma LiesAt.tarFileSize (h : LiesAt b a m.bytes) :
    Fs.tarFileSize b a = m.content.length := by
  have hname := m.name_le
  have hstart := (liesAt_append.mp h.header).1
  simp only [Member.headerStart, liesAt_append] at hstart
  obtain ⟨⟨-, hdigits, hend⟩, -⟩ := hstart
  have hoff : a + (m.name ++ List.replicate (100 - m.name.length) 0 ++ m.owner).length =
      a + 124 := by
    simp only [List.length_append, List.length_replicate, m.owner_length]
    omega
  rw [hoff] at hdigits hend
  rw [length_octal, liesAt_cons] at hend
  have hblank : b (a + 124 + 11) < 0x30 ∨ 0x37 < b (a + 124 + 11) := by
    rw [hend.1]
    rcases m.sizeEnd_blank with h0 | h0 <;> rw [h0] <;> decide
  have hsize := parseOctal_octal 0 0 hdigits hblank
  rwa [Nat.zero_mul, Nat.mod_eq_of_lt m.content_lt, Nat.zero_add m.content.length] at hsize

lemma LiesAt.nextHeader (h : LiesAt b a m.bytes) : Fs.nextHeader b a = a + m.bytes.length := by
  rw [Fs.nextHeader, h.tarFileSize, m.length_bytes, Nat.add_assoc]

lemma LiesAt.pathMatches {fuel : ℕ} {path : List UInt8} (h : LiesAt b a m.bytes)
    (hfuel : 99 ≤ fuel) (hpath : (0 : UInt8) ∉ path) :
    Fs.pathMatches b fuel path a = m.matchedBy path := by
  have hown : IsStr (fun i => m.name.getD i 0) 0 m.name := by
    apply (liesAt_getD m.name).isStr m.name_no_nul
    simp
  rw [Bool.eq_iff_iff, Member.matchedBy, hown.pathMatches_iff le_rfl hpath,
    h.name.pathMatches_iff (m.name_le.trans hfuel) hpath]

lemma LiesAt.tarNodeAt {r : Ramdisk} {k : ℕ} (h : LiesAt r.bytes a m.bytes) (hsize : 99 ≤ r.size) :
    Fs.tarNodeAt r a k = ⟨normalizePath m.name, k + 10, m.content.length, a + 512⟩ := by
  have hname := m.name_le
  have hnorm : (normalizePath m.name).length ≤ m.name.length :=
    (List.dropWhile_sublist _).length_le
  rw [Fs.tarNodeAt, h.tarFileSize,
    (h.name.normalizeAt (hname.trans hsize)).cStr_eq (hnorm.trans (hname.trans (by omega)))]

end Header

/-! ## The walks -/

section Walk

variable {r : Ramdisk} {ms : List Member} {rest path : List UInt8}

/-- The members from offset `a` on, with the offsets of their headers. -/
def placed : ℕ → List Member → List (ℕ × Member)
  | _, [] => []
  | a, m :: ms => (a, m) :: placed (a + m.bytes.length) ms

lemma map_snd_placed (a : ℕ) (ms : List Member) : (placed a ms).map Prod.snd = ms := by
  induction ms generalizing a with
  | nil => rfl
  | cons m ms ih => rw [placed, List.map_cons, ih]

lemma liesAt_of_mem_placed {b : ℕ → UInt8} {a : ℕ} (h : LiesAt b a (ms.flatMap Member.bytes))
    {x : ℕ × Member} (hx : x ∈ placed a ms) : LiesAt b x.1 x.2.bytes := by
  induction ms generalizing a with
  | nil => cases hx
  | cons m ms ih =>
    rw [List.flatMap_cons, liesAt_append] at h
    rcases List.mem_cons.mp hx with rfl | hx
    · exact h.1
    · exact ih h.2 hx

/-- The walk from `a` visits the members from there on, and stops at the closing block. -/
lemma tarHeaders_serialize {fuel a : ℕ} (h : LiesAt r.bytes a (serialize ms rest))
    (hsize : a + (serialize ms rest).length = r.size) (hfuel : r.size < a + 512 * fuel) :
    tarHeaders r fuel a = (placed a ms).map Prod.fst := by
  induction ms generalizing a fuel with
  | nil =>
    -- the first byte of the closing block ends the walk
    rw [serialize, List.flatMap_nil, List.nil_append, List.replicate_succ, List.cons_append,
      liesAt_cons] at h
    cases fuel with
    | zero => rfl
    | succ fuel =>
      rw [tarHeaders, if_neg fun hgo => hgo.2 h.1]
      rfl
  | cons m ms ih =>
    have hsplit : serialize (m :: ms) rest = m.bytes ++ serialize ms rest := by
      rw [serialize, List.flatMap_cons, List.append_assoc]
      rfl
    have hlen : 512 ≤ m.bytes.length := by
      rw [m.length_bytes]
      omega
    rw [hsplit, liesAt_append] at h
    rw [hsplit, List.length_append, ← Nat.add_assoc] at hsize
    obtain ⟨fuel, rfl⟩ : ∃ k, fuel = k + 1 := ⟨fuel - 1, by omega⟩
    rw [tarHeaders, if_pos ⟨by omega, h.1.ne_zero⟩, h.1.nextHeader,
      ih h.2 hsize (by omega), placed, List.map_cons]

lemma tarMembers_serialize (hr : Archived r (serialize ms rest)) :
    tarMembers r = ((placed 0 ms).filter fun x => x.2.isRegular).map Prod.fst := by
  have hlen : 512 ≤ (serialize ms rest).length := by
    rw [serialize, List.length_append, List.length_append, List.length_replicate]
    omega
  have hplaced := (liesAt_append.mp hr.lies).1
  have hgo : ¬ ((!r.loaded) = true ∨ r.size < 512) := by
    rw [hr.loaded, hr.size]
    rintro (h | h)
    · exact absurd h (by decide)
    · omega
  have hsize := hr.size
  rw [tarMembers, if_neg hgo, tarHeaders_serialize hr.lies (by omega) (by omega),
    List.filter_map]
  congr 1
  apply List.filter_congr
  intro x hx
  exact (liesAt_of_mem_placed hplaced hx).isRegular

lemma Archived.le_size (hr : Archived r (serialize ms rest)) : 99 ≤ r.size := by
  rw [hr.size, serialize, List.length_append, List.length_append, List.length_replicate]
  omega

/-- The regular members with the offsets of their headers. -/
def placedFiles (ms : List Member) : List (ℕ × Member) :=
  (placed 0 ms).filter fun x => x.2.isRegular

lemma map_snd_placedFiles (ms : List Member) :
    (placedFiles ms).map Prod.snd = ms.filter Member.isRegular := by
  have hmap := List.filter_map (f := Prod.snd) (p := Member.isRegular) (l := placed 0 ms)
  rw [map_snd_placed] at hmap
  rw [hmap, placedFiles]
  rfl

lemma Archived.file (hr : Archived r (serialize ms rest)) {x : ℕ × Member} (hx : x ∈ placedFiles ms) :
    LiesAt r.bytes x.1 x.2.bytes :=
  liesAt_of_mem_placed (liesAt_append.mp hr.lies).1 (List.mem_of_mem_filter hx)

lemma find?_fst_eq_find?_snd {α β γ : Type} {ps : List (α × β)} {p : α → Bool} {q : β → Bool}
    {f : α → γ} {g : β → γ} (h : ∀ x ∈ ps, p x.1 = q x.2 ∧ f x.1 = g x.2) :
    ((ps.map Prod.fst).find? p).map f = ((ps.map Prod.snd).find? q).map g := by
  induction ps with
  | nil => rfl
  | cons x ps ih =>
    obtain ⟨hpq, hfg⟩ := h x List.mem_cons_self
    rw [List.map_cons, List.map_cons, List.find?_cons, List.find?_cons, hpq]
    cases q x.2 with
    | true => exact congrArg some hfg
    | false => exact ih fun y hy => h y (List.mem_cons_of_mem x hy)

/-- `tarfs_lookup` finds the first regular member whose name matches. -/
lemma tarfsLookup_serialize (hr : Archived r (serialize ms rest)) (hpath : (0 : UInt8) ∉ path) :
    (tarfsLookup r path).map (fun f => (load r.bytes f.1 f.2, f.2)) =
      ((ms.filter Member.isRegular).find? (Member.matchedBy path)).map
        fun m => (m.content, m.content.length) := by
  rw [tarfsLookup_eq, tarMembers_serialize hr, Option.map_map, ← map_snd_placedFiles]
  apply find?_fst_eq_find?_snd
  intro x hx
  have hlies := hr.file hx
  refine ⟨hlies.pathMatches hr.le_size hpath, ?_⟩
  rw [Function.comp_apply, hlies.tarFileSize]
  exact congrArg (·, x.2.content.length) hlies.content

/-- `tarfs_get_vfs_root` makes the nodes of the first 64 regular members. -/
lemma tarfsGetVfsRoot_serialize (hr : Archived r (serialize ms rest)) :
    (tarfsGetVfsRoot r).map
        (fun node => (node.name, node.inode, load r.bytes node.data node.size, node.size)) =
      ((ms.filter Member.isRegular).take 64).mapIdx
        fun k m => (normalizePath m.name, k + 10, m.content, m.content.length) := by
  have hmembers : tarMembers r = (placedFiles ms).map Prod.fst := tarMembers_serialize hr
  rw [tarfsGetVfsRoot_eq, hmembers, ← map_snd_placedFiles]
  apply List.ext_getElem
  · simp only [List.length_map, List.length_mapIdx, List.length_take]
  · intro k hk hk'
    have hlies := hr.file (List.getElem_mem (l := placedFiles ms) (n := k)
      (by simp only [List.length_map, List.length_mapIdx, List.length_take] at hk'; omega))
    simp only [List.getElem_map, List.getElem_mapIdx, List.getElem_take,
      hlies.tarNodeAt hr.le_size]
    have hcontent : load r.bytes _ _ = _ := hlies.content
    rw [hcontent]

/-- **Both walks through an archive find its members.**  `tarfs_lookup` returns the content of the
first regular member whose name matches the path, and fails only if there is none;
`tarfs_get_vfs_root` makes a node for each of the first 64 regular members, in order. -/
theorem tarWalk_serialize (r : Ramdisk) (ms : List Member) (rest path : List UInt8)
    (hr : Archived r (serialize ms rest)) (hpath : (0 : UInt8) ∉ path) :
    (tarfsLookup r path).map (fun f => (load r.bytes f.1 f.2, f.2)) =
        ((ms.filter Member.isRegular).find? (Member.matchedBy path)).map
          (fun m => (m.content, m.content.length)) ∧
      (tarfsGetVfsRoot r).map
          (fun node => (node.name, node.inode, load r.bytes node.data node.size, node.size)) =
        ((ms.filter Member.isRegular).take 64).mapIdx
          fun k m => (normalizePath m.name, k + 10, m.content, m.content.length) :=
  ⟨tarfsLookup_serialize hr hpath, tarfsGetVfsRoot_serialize hr⟩

/-- The directory `bin/`. -/
def binMember : Member where
  name := binDir
  typeflag := 0x35
  content := []
  owner := List.replicate 24 0x30
  sizeEnd := 0
  stamp := List.replicate 20 0x30
  link := List.replicate 188 0
  name_pos := by decide
  name_le := by decide
  name_no_nul := by decide
  content_lt := by decide
  owner_length := rfl
  sizeEnd_blank := Or.inl rfl
  stamp_length := rfl
  link_length := rfl

/-- The file `bin/sh` with three bytes. -/
def shMember : Member where
  name := binDir ++ [0x73, 0x68]
  typeflag := 0x30
  content := [0x7F, 0x45, 0x4C]
  owner := List.replicate 24 0x30
  sizeEnd := 0x20
  stamp := List.replicate 20 0x30
  link := List.replicate 188 0
  name_pos := by decide
  name_le := by decide
  name_no_nul := by decide
  content_lt := by decide
  owner_length := rfl
  sizeEnd_blank := Or.inr rfl
  stamp_length := rfl
  link_length := rfl

/-- A ramdisk with nothing but zeros behind it. -/
def ramdiskOf (archive : List UInt8) : Ramdisk := ⟨fun i => archive.getD i 0, archive.length, true⟩

lemma archived_ramdiskOf (archive : List UInt8) : Archived (ramdiskOf archive) archive :=
  ⟨rfl, rfl, liesAt_getD archive⟩

/-- `sh` is found behind the directory. -/
theorem tarWalk_serialize_sh :
    (tarfsLookup (ramdiskOf (serialize [binMember, shMember] [])) [0x73, 0x68]).map
        (fun f => (load (ramdiskOf (serialize [binMember, shMember] [])).bytes f.1 f.2, f.2)) =
      some ([0x7F, 0x45, 0x4C], 3) :=
  (tarWalk_serialize _ [binMember, shMember] [] [0x73, 0x68] (archived_ramdiskOf _) (by decide)).1.trans
    (by decide)

end Walk

end Bangos.Fs
