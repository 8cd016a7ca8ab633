import Bangos.Fs.Ext2Create
import Bangos.Fs.Vfs
import Bangos.Lib.Runs

/-!
# Finding files of a mounted volume by their paths

`vfs_lookup` asks `ext2_vfs_finddir` for one component after another, and each answer is a new
node of a pool of 128, which are never given back.  To `vfs_open` a lookup that has found no
free node looks like one that has found no file, so that it goes on to create the file.
-/

namespace Bangos.Fs

open ByteMem Bangos.Drivers Bangos.Mm Runs

/-! ## The nodes of all file systems -/

/-- A node: one of the pool of ext2, or one of another file system. -/
inductive VNode (ω : Type) where
  | ext2 (h : ℕ)
  | other (x : ω)

variable {ω : Type}

/-- `ext2_dir_ops` and `ext2_file_ops` on paths, beside the operations of the other file
systems: only the directories have `finddir` and `create`. -/
def mountedOps (other : VfsOps ω Id) : VfsOps (VNode ω) (StateM Ext2) where
  finddir
    | .ext2 h, name => fun fs =>
      if (fs.pool h).isDir then ((ext2VfsFinddir fs h name).1.map .ext2, (ext2VfsFinddir fs h name).2)
      else (none, fs)
    | .other x, name => pure ((other.finddir x name : Option ω).map .other)
  create
    | .ext2 h, name, mode => fun fs =>
      if (fs.pool h).isDir then
        ((ext2VfsCreate fs h name mode).1.map .ext2, (ext2VfsCreate fs h name mode).2)
      else (none, fs)
    | .other x, name, mode => pure ((other.create x name mode : Option ω).map .other)

/-! ## The tree on the disk -/

/-- `(i_mode & EXT2_S_IFMT) == EXT2_S_IFDIR`. -/
def isDirInode (inode : Inode) : Bool := iMode inode / 0x1000 * 0x1000 % 0x10000 == 0x4000

/-- The inodes below the root directory, which is inode 2. -/
inductive InTree (fs : Ext2) : ℕ → Prop
  | root : InTree fs 2
  | entry {d : ℕ} {e : DirEntry} (hd : InTree fs d) (hdir : isDirInode (diskInode fs d) = true)
      (he : e ∈ dirEntries fs (diskInode fs d)) : InTree fs e.inode

/-- A consistent tree on a working device: the blocks of the directories lie on the disk, and
their records name inodes of the volume. -/
structure TreeOk (fs : Ext2) : Prop where
  valid : fs.layout.Valid
  blocks : ∀ d, InTree fs d → isDirInode (diskInode fs d) = true →
    ∀ n, DirUses fs (diskInode fs d) n → fs.layout.OnDisk n
  inodes : ∀ d, InTree fs d → isDirInode (diskInode fs d) = true →
    ∀ e ∈ dirEntries fs (diskInode fs d), fs.layout.HasInode e.inode

/-- The inode that a list of names leads to from the inode `ino`. -/
def fileAt (fs : Ext2) : ℕ → List (List UInt8) → Option ℕ
  | ino, [] => some ino
  | ino, name :: names =>
    if isDirInode (diskInode fs ino) then
      (dirLookup fs (diskInode fs ino) name).bind fun next => fileAt fs next names
    else none

/-- Node `h` of the pool is a copy of inode `ino`. -/
structure NodeOf (fs : Ext2) (h ino : ℕ) : Prop where
  lt : h < fs.poolCount
  number : (fs.pool h).ino = ino
  inode : (fs.pool h).inode = diskInode fs ino
  isDir : (fs.pool h).isDir = isDirInode (diskInode fs ino)

/-- A mounted volume, whose root directory is node `root` of the pool. -/
structure Mounted (fs : Ext2) (root : ℕ) : Prop where
  tree : TreeOk fs
  node : NodeOf fs root 2
  count : fs.poolCount ≤ maxNodes

/-! ## Nodes are added -/

/-- The volume with another pool of nodes. -/
def Ext2.withPool (fs : Ext2) (pool : ℕ → Ext2Node) (count : ℕ) : Ext2 :=
  { fs with pool := pool, poolCount := count }

section Pool

variable {fs : Ext2} {pool : ℕ → Ext2Node} {count : ℕ}

@[simp] lemma withPool_withPool (pool' : ℕ → Ext2Node) (count' : ℕ) :
    (fs.withPool pool count).withPool pool' count' = fs.withPool pool' count' := rfl

lemma diskBlock_withPool (fs : Ext2) (pool : ℕ → Ext2Node) (count n : ℕ) :
    diskBlock (fs.withPool pool count) n = diskBlock fs n := rfl

lemma diskInode_withPool (fs : Ext2) (pool : ℕ → Ext2Node) (count ino : ℕ) :
    diskInode (fs.withPool pool count) ino = diskInode fs ino := rfl

lemma inTree_withPool {d : ℕ} (h : InTree (fs.withPool pool count) d) : InTree fs d := by
  induction h with
  | root => exact .root
  | entry _ hdir he ih => exact .entry ih hdir he

lemma TreeOk.withPool (h : TreeOk fs) (pool : ℕ → Ext2Node) (count : ℕ) :
    TreeOk (fs.withPool pool count) where
  valid := h.valid
  blocks := fun d hd => h.blocks d (inTree_withPool hd)
  inodes := fun d hd => h.inodes d (inTree_withPool hd)

lemma inTree_withPool_of {d : ℕ} (h : InTree fs d) : InTree (fs.withPool pool count) d := by
  induction h with
  | root => exact .root
  | entry _ hdir he ih => exact .entry ih hdir he

lemma fileAt_withPool (ino : ℕ) (names : List (List UInt8)) :
    fileAt (fs.withPool pool count) ino names = fileAt fs ino names := by
  induction names generalizing ino with
  | nil => rfl
  | cons name names ih =>
    rw [fileAt, fileAt]
    simp only [ih]
    rfl

/-- The pool has only grown: the volume is the same, and so are the nodes there were. -/
def Grown (fs fs' : Ext2) (count : ℕ) : Prop :=
  ∃ pool, fs' = fs.withPool pool count ∧ ∀ i < fs.poolCount, pool i = fs.pool i

lemma Grown.nodeOf {fs' : Ext2} {h ino : ℕ} (hg : Grown fs fs' count) (hle : fs.poolCount ≤ count)
    (hn : NodeOf fs h ino) : NodeOf fs' h ino := by
  obtain ⟨pool, rfl, hpool⟩ := hg
  have hh : (fs.withPool pool count).pool h = fs.pool h := hpool h hn.lt
  refine ⟨hn.lt.trans_le hle, ?_, ?_, ?_⟩
  · rw [hh, hn.number]
  · rw [hh, hn.inode]
    rfl
  · rw [hh, hn.isDir]
    rfl

lemma Grown.trans {fs' fs'' : Ext2} {count' : ℕ} (hg : Grown fs fs' count)
    (hg' : Grown fs' fs'' count') (hle : fs.poolCount ≤ count) : Grown fs fs'' count' := by
  obtain ⟨pool, rfl, hpool⟩ := hg
  obtain ⟨pool', rfl, hpool'⟩ := hg'
  exact ⟨pool', rfl, fun i hi => (hpool' i (hi.trans_le hle)).trans (hpool i hi)⟩

end Pool

/-! ## One component -/

section Walk

variable {fs : Ext2} {h d ino : ℕ} {name : List UInt8} {ops : VfsOps (VNode ω) (StateM Ext2)}

/-- **One component of a path**: a node more, unless all nodes are taken. -/
lemma finddir_mounted (other : VfsOps ω Id) (ht : TreeOk fs) (hn : NodeOf fs h d) (hd : InTree fs d)
    (hdir : isDirInode (diskInode fs d) = true)
    (hlook : dirLookup fs (diskInode fs d) name = some ino) :
    (maxNodes ≤ fs.poolCount ∧ (mountedOps other).finddir (.ext2 h) name fs = (none, fs)) ∨
      ∃ fs', (mountedOps other).finddir (.ext2 h) name fs = (some (.ext2 fs.poolCount), fs') ∧
        fs.poolCount < maxNodes ∧ Grown fs fs' (fs.poolCount + 1) ∧
        NodeOf fs' fs.poolCount ino := by
  obtain ⟨e, he, rfl⟩ := Option.map_eq_some_iff.mp hlook
  have hcall : ext2VfsFinddir fs h name =
      ext2CreateVfsNode fs e.inode (e.name.take 127) (diskInode fs e.inode) := by
    rw [ext2VfsFinddir_eq ht.valid.tables (ht.blocks d hd hdir) hn.inode (ht.inodes d hd hdir), he]
  have hop : (mountedOps other).finddir (.ext2 h) name fs =
      ((ext2VfsFinddir fs h name).1.map .ext2, (ext2VfsFinddir fs h name).2) :=
    if_pos (hn.isDir.trans hdir)
  rw [hop, hcall, ext2CreateVfsNode]
  by_cases hfull : maxNodes ≤ fs.poolCount
  · rw [if_pos hfull]
    exact Or.inl ⟨hfull, rfl⟩
  · rw [if_neg hfull]
    refine Or.inr ⟨_, rfl, Nat.lt_of_not_le hfull, ⟨_, rfl, fun i hi => ?_⟩, ?_⟩
    · exact Function.update_of_ne hi.ne _ _
    · refine ⟨Nat.lt_succ_self _, ?_, ?_, ?_⟩ <;> dsimp only <;> rw [Function.update_self]
      · rfl
      · rfl

lemma walkNames_cons (ops : VfsOps (VNode ω) (StateM Ext2)) (curr : VNode ω) (name : List UInt8)
    (names : List (List UInt8)) (fs : Ext2) :
    walkNames ops curr (name :: names) fs =
      match ops.finddir curr name fs with
      | (none, fs') => (none, fs')
      | (some next, fs') => walkNames ops next names fs' := by
  rw [walkNames]
  rcases hr : ops.finddir curr name fs with ⟨_ | next, fs'⟩
  · simp only [bind, StateT.bind, hr]
    rfl
  · simp only [bind, StateT.bind, hr]

/-- **The walk along an existing path**: a node for every component, or the pool is exhausted on
the way. -/
lemma walkNames_mounted (other : VfsOps ω Id) (hops : ops.finddir = (mountedOps other).finddir)
    (names : List (List UInt8)) (ht : TreeOk fs) (hn : NodeOf fs h d) (hd : InTree fs d)
    (hcount : fs.poolCount ≤ maxNodes) (hfile : fileAt fs d names = some ino) :
    (fs.poolCount + names.length ≤ maxNodes ∧
      ∃ h' fs', walkNames ops (.ext2 h) names fs = (some (.ext2 h'), fs') ∧
        Grown fs fs' (fs.poolCount + names.length) ∧ NodeOf fs' h' ino) ∨
    (maxNodes < fs.poolCount + names.length ∧
      ∃ fs', walkNames ops (.ext2 h) names fs = (none, fs') ∧ Grown fs fs' maxNodes) := by
  induction names generalizing fs h d with
  | nil =>
    obtain rfl := Option.some.inj hfile
    exact Or.inl ⟨hcount, h, fs, rfl, ⟨fs.pool, rfl, fun i _ => rfl⟩, hn⟩
  | cons name names ih =>
    rw [fileAt] at hfile
    by_cases hdir : isDirInode (diskInode fs d) = true
    swap
    · rw [if_neg hdir] at hfile
      cases hfile
    rw [if_pos hdir] at hfile
    obtain ⟨next, hlook, hrest⟩ := Option.bind_eq_some_iff.mp hfile
    rw [walkNames_cons, hops, List.length_cons]
    rcases finddir_mounted other ht hn hd hdir hlook with
      ⟨hfull, hcall⟩ | ⟨fs', hcall, hroom, hgrown, hn'⟩
    · rw [hcall]
      refine Or.inr ⟨by omega, fs, rfl, fs.pool, ?_, fun i _ => rfl⟩
      rw [show maxNodes = fs.poolCount by omega]
      rfl
    · rw [hcall]
      dsimp only
      have hcount' : fs'.poolCount = fs.poolCount + 1 := by
        obtain ⟨pool, rfl, -⟩ := hgrown
        rfl
      have hd' : InTree fs' next := by
        obtain ⟨e, he, rfl⟩ := Option.map_eq_some_iff.mp hlook
        obtain ⟨pool, rfl, -⟩ := hgrown
        exact .entry (inTree_withPool_of hd) hdir (List.mem_of_find?_eq_some he)
      have ht' : TreeOk fs' := by
        obtain ⟨pool, rfl, -⟩ := hgrown
        exact ht.withPool _ _
      have hrest' : fileAt fs' next names = some ino := by
        obtain ⟨pool, rfl, -⟩ := hgrown
        rw [fileAt_withPool, hrest]
      rcases ih ht' hn' hd' (by omega) hrest' with ⟨hfit, h', fs'', hw, hg, hnode⟩ | ⟨hover, fs'', hw, hg⟩
      · rw [hcount'] at hfit hg
        refine Or.inl ⟨by omega, h', fs'', hw, ?_, hnode⟩
        rw [show fs.poolCount + (names.length + 1) = fs.poolCount + 1 + names.length by omega]
        exact hgrown.trans hg (Nat.le_succ _)
      · rw [hcount'] at hover
        exact Or.inr ⟨by omega, fs'', hw, hgrown.trans hg (Nat.le_succ _)⟩

end Walk

/-! ## Whole paths -/

section Paths

variable {fs : Ext2} {root ino : ℕ} {path mp : List UInt8} {mounts : List (Mount (VNode ω))}
  {ops : VfsOps (VNode ω) (StateM Ext2)}

/-- `vfs_lookup` finds the file, and `vfs_open` does nothing else, whatever `create` would do;
nothing is written to the device. -/
def LookupLasts (fs : Ext2) (mounts : List (Mount (VNode ω))) (other : VfsOps ω Id)
    (path : List UInt8) (ino : ℕ) : Prop :=
  ∃ h fs', vfsLookup path.length mounts (mountedOps other) (strRead path) fs =
      (some (.ext2 h), fs') ∧
    (fs'.pool h).ino = ino ∧ fs'.dev = fs.dev ∧
    ∀ flags mode create, vfsOpen path.length mounts { mountedOps other with create := create }
      (strRead path) flags mode fs = (some (.ext2 h), fs')

lemma vfsLookup_mounted (h0 : (0 : UInt8) ∉ path)
    (hmount : mountOf mounts path = some ⟨mp, .ext2 root⟩) :
    vfsLookup path.length mounts ops (strRead path) =
      walkNames ops (.ext2 root) (components (path.drop mp.length)) := by
  rw [vfsLookup_strRead ops mounts h0 le_rfl, hmount]

lemma vfsOpen_of_found {node : VNode ω} {fs' : Ext2}
    (h : vfsLookup path.length mounts ops (strRead path) fs = (some node, fs'))
    (flags mode : ℕ) :
    vfsOpen path.length mounts ops (strRead path) flags mode fs = (some node, fs') := by
  simp only [vfsOpen, bind, StateT.bind, h]
  rfl

/-- A file that is not found is created in the directory that is found, if that is asked for. -/
lemma vfsOpen_of_not_found {parent : VNode ω} {fs' fs'' : Ext2} {flags : ℕ} (mode : ℕ)
    (h0 : (0 : UInt8) ∉ path)
    (h : vfsLookup path.length mounts ops (strRead path) fs = (none, fs'))
    (hflags : flags.testBit 6 = true)
    (hdir : vfsLookup path.length mounts ops (strRead (splitLast path).1) fs' =
      (some parent, fs'')) :
    vfsOpen path.length mounts ops (strRead path) flags mode fs =
      ops.create parent (splitLast path).2 mode fs'' := by
  rw [vfsOpen, readStr_strRead h0 (by omega)]
  simp only [bind, StateT.bind, h, hflags, if_true, pure, StateT.pure, List.drop_zero, hdir]

/-- **When lookups last.**  On a mounted volume, a path that names a file leads to its inode,
and opening it creates nothing, exactly if the pool has a node for every component. -/
theorem lookupLasts_iff (hm : Mounted fs root) (h0 : (0 : UInt8) ∉ path)
    (hmount : mountOf mounts path = some ⟨mp, .ext2 root⟩)
    (hfile : fileAt fs 2 (components (path.drop mp.length)) = some ino)
    (other : VfsOps ω Id) :
    LookupLasts fs mounts other path ino ↔
      fs.poolCount + (components (path.drop mp.length)).length ≤ maxNodes := by
  rcases walkNames_mounted other rfl _ hm.tree hm.node .root hm.count hfile with ⟨hfit, h, fs', hw, hg, hn⟩ | ⟨hover, fs', hw, hg⟩
  · refine iff_of_true ⟨h, fs', ?_, hn.number, ?_, fun flags mode create => ?_⟩ hfit
    · rw [vfsLookup_mounted h0 hmount, hw]
    · obtain ⟨pool, rfl, -⟩ := hg
      rfl
    · refine vfsOpen_of_found ?_ flags mode
      rw [vfsLookup_mounted h0 hmount, ← hw]
      exact congrFun (walkNames_congr (by rfl) _ _) fs
  · refine iff_of_false (fun ⟨h, fs'', hlook, _⟩ => ?_) (by omega)
    rw [vfsLookup_mounted h0 hmount, hw] at hlook
    cases (Prod.mk.inj hlook).1

end Paths

/-! ## Runs -/

/-- The operations on paths that do not belong to an open file. -/
inductive PathOp where
  | lookup (path : List UInt8)
  | openFile (path : List UInt8) (flags mode : ℕ)
  | close

/-- The volume after an operation; closing a file leaves its node where it is. -/
def pathStep (mounts : List (Mount (VNode ω))) (other : VfsOps ω Id) (fs : Ext2) : PathOp → Ext2
  | .lookup path => (vfsLookup path.length mounts (mountedOps other) (strRead path) fs).2
  | .openFile path flags mode =>
    (vfsOpen path.length mounts (mountedOps other) (strRead path) flags mode fs).2
  | .close => fs

section RunsOfLookups

variable {fs : Ext2} {root : ℕ} {mounts : List (Mount (VNode ω))}

lemma Mounted.grown {fs' : Ext2} {count : ℕ} (hm : Mounted fs root) (hg : Grown fs fs' count)
    (hle : fs.poolCount ≤ count) (hmax : count ≤ maxNodes) : Mounted fs' root := by
  have hnode := hg.nodeOf hle hm.node
  obtain ⟨pool, rfl, -⟩ := hg
  exact ⟨hm.tree.withPool _ _, hnode, hmax⟩

/-- Looking one file up again and again takes its nodes again and again. -/
lemma lookups_used (other : VfsOps ω Id) {ino n : ℕ} {path mp : List UInt8} (hm : Mounted fs root)
    (h0 : (0 : UInt8) ∉ path) (hmount : mountOf mounts path = some ⟨mp, .ext2 root⟩)
    (hfile : fileAt fs 2 (components (path.drop mp.length)) = some ino)
    (hfit : fs.poolCount + n * (components (path.drop mp.length)).length ≤ maxNodes) :
    Grown fs (runFrom (pathStep mounts other) fs (List.replicate n (.lookup path)))
      (fs.poolCount + n * (components (path.drop mp.length)).length) := by
  induction n generalizing fs with
  | zero =>
    rw [Nat.zero_mul, Nat.add_zero]
    exact ⟨fs.pool, rfl, fun i _ => rfl⟩
  | succ n ih =>
    rw [Nat.succ_mul] at hfit ⊢
    rw [List.replicate_succ, runFrom_cons]
    rcases walkNames_mounted other rfl _ hm.tree hm.node .root hm.count hfile with
      ⟨hroom, h', fs', hw, hg, -⟩ | ⟨hover, -⟩
    · have hstep : pathStep mounts other fs (.lookup path) = fs' := by
        rw [pathStep, vfsLookup_mounted h0 hmount, hw]
      rw [hstep]
      have hm' := hm.grown hg (Nat.le_add_right _ _) hroom
      have hc : fs'.poolCount = fs.poolCount + (components (path.drop mp.length)).length := by
        obtain ⟨pool, rfl, -⟩ := hg
        rfl
      have hfile' : fileAt fs' 2 (components (path.drop mp.length)) = some ino := by
        obtain ⟨pool, rfl, -⟩ := hg
        rw [fileAt_withPool, hfile]
      have hrest := ih hm' hfile' (by omega)
      rw [hc] at hrest
      rw [show fs.poolCount + (n * (components (path.drop mp.length)).length +
          (components (path.drop mp.length)).length) =
        fs.poolCount + (components (path.drop mp.length)).length +
          n * (components (path.drop mp.length)).length by omega]
      exact hg.trans hrest (Nat.le_add_right _ _)
    · omega

end RunsOfLookups

/-! ## A second record -/

section SecondRecord

variable {fs : Ext2} {dir mode : ℕ} {name : List UInt8} {es : List DirEntry}

/-- The number of records with a name that a scan of a directory meets. -/
def recordsNamed (fs : Ext2) (inode : Inode) (name : List UInt8) : ℕ :=
  (dirEntries fs inode).countP fun e => decide (e.name = name)

lemma recordsNamed_withPool (fs : Ext2) (pool : ℕ → Ext2Node) (count : ℕ) (inode : Inode)
    (name : List UInt8) :
    recordsNamed (fs.withPool pool count) inode name = recordsNamed fs inode name := rfl

lemma DirOk.withPool {inode : Inode} (h : DirOk fs inode) (pool : ℕ → Ext2Node) (count : ℕ) :
    DirOk (fs.withPool pool count) inode :=
  ⟨h.first, h.onDisk, h.plain, h.walk⟩

lemma countP_filter_live (name : List UInt8) (es : List DirEntry) :
    (es.filter DirEntry.live).countP (fun e => decide (e.name = name)) =
      es.countP fun e => decide (e.name = name) && e.live :=
  List.countP_filter

lemma countP_lt_insert {q : DirEntry → Bool} {pre post : List DirEntry} {e e' new : DirEntry}
    (hnew : q new = true) (he : q e' = q e) :
    (pre ++ e :: post).countP q < (pre ++ e' :: new :: post).countP q := by
  simp only [List.countP_append, List.countP_cons, hnew, he, if_true]
  omega

/-- **Creating a file with an exhausted pool** fails, and leaves a record of its name behind
those there were. -/
lemma create_exhausted (hv : fs.layout.Valid) (hok : DirOk fs (fs.pool dir).inode)
    (hw : Walk (diskBlock fs (iBlock (fs.pool dir).inode 0)) 1024 0 es)
    (hpool : maxNodes ≤ fs.poolCount) (hfree : ∃ g < fs.groupCount, ¬ Full fs .inode g)
    (hname : name ≠ []) (hlen : name.length < 256)
    (hroom : (splitEntry (diskBlock fs (iBlock (fs.pool dir).inode 0)) 1024 name.length).isSome) :
    (ext2VfsCreate fs dir name mode).1 = none ∧
      (ext2VfsCreate fs dir name mode).2.pool = fs.pool ∧
      es.countP (fun e => decide (e.name = name) && e.live) <
        recordsNamed (ext2VfsCreate fs dir name mode).2 (fs.pool dir).inode name := by
  rcases ext2AllocInode_cases hv with ⟨-, hfull⟩ | ⟨g, b, hg, hb, -, -, halloc⟩
  · obtain ⟨g, hg, hno⟩ := hfree
    exact absurd (hfull g hg) hno
  have hcall := ext2VfsCreate_eq hv hg hb dir mode name halloc
  obtain ⟨hl, hp, hpc, -, hrec⟩ := created_spec hv hg hb hok mode name
  have hino := (entryOf_inode hv.allocates hg hb).2.1
  rw [hcall]
  generalize fs.created dir g b mode name = c at hl hp hpc hrec
  generalize fs.sb.entryOf g b .inode = ino at hino hrec
  rw [ext2CreateVfsNode, if_pos (by omega)]
  refine ⟨rfl, hp, ?_⟩
  rcases hrec with ⟨hnone, -⟩ | ⟨-, pre, e, post, hw1, hw2⟩
  · rw [hnone] at hroom
    cases hroom
  obtain rfl : es = pre ++ e :: post := by
    rw [← hw.blockEntries_eq (le_refl (1024 - 0)), hw1.blockEntries_eq (le_refl (1024 - 0))]
  have hbs : c.blockSize = 1024 := (congrArg Layout.blockSize hl).trans hv.blockSize
  obtain ⟨rest, hes⟩ := dirEntries_eq hbs hok.first (hw2 hlen)
  have hlive : (decide ((e.behind ino name).name = name) && (e.behind ino name).live) = true := by
    simp only [DirEntry.live, DirEntry.behind, decide_true, Bool.true_and, Bool.and_eq_true,
      bne_iff_ne]
    exact ⟨by omega, decide_eq_true (List.length_pos_iff.mpr hname)⟩
  have hmore := (Nat.le_add_right _ (rest.countP fun e => decide (e.name = name))).trans_eq
    (List.countP_append.symm.trans (congrArg (List.countP _) hes.symm))
  refine Nat.lt_of_lt_of_le ?_ hmore
  rw [countP_filter_live]
  exact countP_lt_insert hlive rfl

end SecondRecord

/-! ## A volume mounted at `/mnt/ext2` -/

/-- A small volume with the files `a` and `b` in its root directory, which is node 0. -/
def twoFiles : Ext2 :=
  let v := (rootVolume fourRecords).putInode 2 ((rootVolume fourRecords).pool 0).inode
  { v with pool := fun _ => ⟨2, diskInode v 2, [], 1024, 0o755, true⟩ }

/-- The ramdisk at `/`, here empty, and the volume. -/
def mountTable : List (Mount (VNode Unit)) :=
  [⟨ascii "/", .other ()⟩, ⟨ascii "/mnt/ext2", .ext2 0⟩]

/-- A file system without files. -/
def noFiles : VfsOps Unit Id := ⟨fun _ _ => none, fun _ _ _ => none⟩

lemma twoFiles_valid : twoFiles.layout.Valid := by
  have hl : twoFiles.layout = (rootVolume fourRecords).layout := rfl
  rw [hl]
  exact rootVolume_valid fourRecords

lemma twoFiles_disk :
    (dirEntries twoFiles (diskInode twoFiles 2) = fourRecords ∧
      dirBlocks twoFiles (diskInode twoFiles 2) = 1 ∧
      fileBlock twoFiles (diskInode twoFiles 2) 0 = 6 ∧ iBlock (diskInode twoFiles 2) 0 = 6) ∧
    isDirInode (diskInode twoFiles 2) = true ∧ isDirInode (diskInode twoFiles 3) = false ∧
      isDirInode (diskInode twoFiles 4) = false := by
  decide +kernel

lemma dirEntries_twoFiles : dirEntries twoFiles (diskInode twoFiles 2) = fourRecords :=
  twoFiles_disk.1.1

lemma iBlock_twoFiles : iBlock (diskInode twoFiles 2) 0 = 6 :=
  twoFiles_disk.1.2.2.2

lemma dirUses_twoFiles {n : ℕ} (hn : DirUses twoFiles (diskInode twoFiles 2) n) : n = 6 := by
  obtain ⟨-, hsize, hblock, -⟩ := twoFiles_disk.1
  obtain ⟨-, b, hb, hn⟩ := hn
  rw [hsize] at hb
  obtain rfl : b = 0 := by omega
  rcases hn with hn | hn
  · cases hn
  · exact hn.trans hblock

lemma inTree_twoFiles {d : ℕ} (h : InTree twoFiles d) : d = 2 ∨ d = 3 ∨ d = 4 := by
  obtain ⟨-, -, h3, h4⟩ := twoFiles_disk
  induction h with
  | root => exact Or.inl rfl
  | @entry d e _ hdir he ih =>
    rcases ih with rfl | rfl | rfl
    · rw [dirEntries_twoFiles] at he
      revert e
      decide
    · exact absurd hdir (by rw [h3]; exact Bool.false_ne_true)
    · exact absurd hdir (by rw [h4]; exact Bool.false_ne_true)

lemma dir_twoFiles {d : ℕ} (h : InTree twoFiles d)
    (hdir : isDirInode (diskInode twoFiles d) = true) : d = 2 := by
  obtain ⟨-, -, h3, h4⟩ := twoFiles_disk
  rcases inTree_twoFiles h with rfl | rfl | rfl
  · rfl
  · exact absurd (h3.symm.trans hdir) Bool.false_ne_true
  · exact absurd (h4.symm.trans hdir) Bool.false_ne_true

lemma mounted_twoFiles : Mounted twoFiles 0 := by
  refine ⟨⟨twoFiles_valid, fun d hd hdir n hn => ?_, fun d hd hdir e he => ?_⟩,
    ⟨Nat.one_pos, rfl, rfl, twoFiles_disk.2.1.symm⟩, show 1 ≤ 128 by omega⟩
  · obtain rfl := dir_twoFiles hd hdir
    rw [dirUses_twoFiles hn]
    exact show 6 * 2 + 2 ≤ 64 by omega
  · obtain rfl := dir_twoFiles hd hdir
    rw [dirEntries_twoFiles] at he
    have hnumber : ∀ e ∈ fourRecords, 0 < e.inode ∧ e.inode ≤ 1 * 8 := by decide
    exact hnumber e he

lemma walk_twoFiles : Walk (diskBlock twoFiles 6) 1024 0 fourRecords := by
  have hsame : diskBlock twoFiles 6 = diskBlock (rootVolume fourRecords) 6 :=
    diskBlock_putInode_of_plain (rootVolume_valid fourRecords).tables (by decide)
      (plain_smallVolume le_rfl) _
  rw [hsame]
  exact walk_fourRecords

lemma dirOk_twoFiles : DirOk twoFiles (diskInode twoFiles 2) := by
  have hblock := iBlock_twoFiles
  refine ⟨by rw [hblock]; decide, fun n hn => ?_, fun n hn => ?_, fourRecords, ?_⟩
  · rw [dirUses_twoFiles hn]
    exact show 6 * 2 + 2 ≤ 64 by omega
  · rw [dirUses_twoFiles hn]
    exact plain_smallVolume le_rfl
  · rw [hblock]
    exact walk_twoFiles

/-- The path of the file `a`. -/
def pathA : List UInt8 := ascii "/mnt/ext2/a"

/-- The volume when `a` has been looked up 127 times. -/
def wornOut : Ext2 :=
  runFrom (pathStep mountTable noFiles) twoFiles (List.replicate 127 (.lookup pathA))

lemma pathA_parts :
    (0 : UInt8) ∉ pathA ∧
      components (pathA.drop (ascii "/mnt/ext2").length) = [ascii "a"] ∧
      splitLast pathA = (ascii "/mnt/ext2", ascii "a") ∧
      (0 : UInt8) ∉ ascii "/mnt/ext2" ∧ (ascii "/mnt/ext2").length ≤ pathA.length := by
  decide +kernel

lemma mountOf_pathA : mountOf mountTable pathA = some ⟨ascii "/mnt/ext2", .ext2 0⟩ := rfl

/-- What the volume says about the name `a`: it is that of inode 3, one record has it, and there
is room for another one and for its inode. -/
lemma twoFiles_a :
    fileAt twoFiles 2 [ascii "a"] = some 3 ∧
      recordsNamed twoFiles (diskInode twoFiles 2) (ascii "a") = 1 ∧
      fourRecords.countP (fun e => decide (e.name = ascii "a") && e.live) = 1 ∧
      (splitEntry (diskBlock twoFiles 6) 1024 (ascii "a").length).isSome ∧
      entryBit twoFiles .inode 0 4 = false := by
  decide +kernel

lemma fileAt_pathA :
    fileAt twoFiles 2 (components (pathA.drop (ascii "/mnt/ext2").length)) = some 3 := by
  rw [pathA_parts.2.1]
  exact twoFiles_a.1

theorem lookupLasts_iff_twoFiles : LookupLasts twoFiles mountTable noFiles pathA 3 := by
  refine (lookupLasts_iff mounted_twoFiles pathA_parts.1 mountOf_pathA fileAt_pathA noFiles).mpr ?_
  rw [pathA_parts.2.1]
  exact show 1 + 1 ≤ 128 by omega

lemma grown_wornOut : Grown twoFiles wornOut maxNodes := by
  have h := lookups_used noFiles mounted_twoFiles pathA_parts.1 mountOf_pathA fileAt_pathA
    (n := 127) (by rw [pathA_parts.2.1]; exact show 1 + 127 * 1 ≤ 128 by omega)
  rwa [pathA_parts.2.1] at h

lemma notFull_twoFiles : ¬ Full twoFiles .inode 0 := by
  rintro (hcount | hbits)
  · exact absurd hcount (show ¬ (4 : ℕ) = 0 by omega)
  · exact Bool.false_ne_true (twoFiles_a.2.2.2.2.symm.trans (hbits 4 (show 4 < 8 by omega)))

/-- With all nodes taken, creating `a` in the root directory once more adds a second record. -/
lemma created_twice {pool : ℕ → Ext2Node} (hroot : pool 0 = twoFiles.pool 0) :
    1 < recordsNamed (ext2VfsCreate (twoFiles.withPool pool maxNodes) 0 (ascii "a") 0).2
      (diskInode twoFiles 2) (ascii "a") := by
  obtain ⟨-, -, hone, hroom, -⟩ := twoFiles_a
  have hinode : ((twoFiles.withPool pool maxNodes).pool 0).inode = diskInode twoFiles 2 :=
    congrArg Ext2Node.inode hroot
  have hw : Walk (diskBlock (twoFiles.withPool pool maxNodes)
      (iBlock ((twoFiles.withPool pool maxNodes).pool 0).inode 0)) 1024 0 fourRecords := by
    rw [hinode, iBlock_twoFiles, diskBlock_withPool]
    exact walk_twoFiles
  have hok : DirOk (twoFiles.withPool pool maxNodes)
      ((twoFiles.withPool pool maxNodes).pool 0).inode := by
    rw [hinode]
    exact dirOk_twoFiles.withPool _ _
  have hv : (twoFiles.withPool pool maxNodes).layout.Valid := twoFiles_valid
  have hmore : fourRecords.countP (fun e => decide (e.name = ascii "a") && e.live) <
      recordsNamed (ext2VfsCreate (twoFiles.withPool pool maxNodes) 0 (ascii "a") 0).2
        ((twoFiles.withPool pool maxNodes).pool 0).inode (ascii "a") :=
    (create_exhausted hv hok hw le_rfl ⟨0, Nat.one_pos, notFull_twoFiles⟩ (by decide) (by decide)
      (by rw [hinode, iBlock_twoFiles, diskBlock_withPool]; exact hroom)).2.2
  rwa [hinode, hone] at hmore

/-- With the root directory in node 0 and all nodes taken, the file that was not found is created
once more. -/
lemma opened_twice {fs : Ext2} {pool : ℕ → Ext2Node}
    (hlook : vfsLookup pathA.length mountTable (mountedOps noFiles) (strRead pathA) fs =
      (none, twoFiles.withPool pool maxNodes)) (hroot : pool 0 = twoFiles.pool 0) :
    1 < recordsNamed (pathStep mountTable noFiles fs (.openFile pathA 0x40 0))
      (diskInode twoFiles 2) (ascii "a") := by
  obtain ⟨h0, -, hsplit, hmp, hlen⟩ := pathA_parts
  have hnew := created_twice hroot
  have hisDir : ((twoFiles.withPool pool maxNodes).pool 0).isDir = true :=
    congrArg Ext2Node.isDir hroot
  generalize twoFiles.withPool pool maxNodes = worn at hlook hnew hisDir
  have hdir : vfsLookup pathA.length mountTable (mountedOps noFiles)
      (strRead (splitLast pathA).1) worn = (some (.ext2 0), worn) := by
    rw [hsplit, vfsLookup_strRead _ _ hmp hlen]
    rfl
  have hstep : pathStep mountTable noFiles fs (.openFile pathA 0x40 0) =
      (ext2VfsCreate worn 0 (ascii "a") 0).2 := by
    rw [pathStep, vfsOpen_of_not_found 0 h0 hlook (by decide) hdir, hsplit]
    exact congrArg Prod.snd (if_pos hisDir)
  rw [hstep]
  exact hnew

/-- **Lookups wear out**: after 127 lookups of `a`, the file is still there and is not found, and
opening it with `O_CREAT` puts a second record of its name into the directory. -/
theorem lookup_worn_out :
    Mounted wornOut 0 ∧
      fileAt wornOut 2 (components (pathA.drop (ascii "/mnt/ext2").length)) = some 3 ∧
      ¬ LookupLasts wornOut mountTable noFiles pathA 3 ∧
      recordsNamed wornOut (diskInode wornOut 2) (ascii "a") = 1 ∧
      1 < recordsNamed (pathStep mountTable noFiles wornOut (.openFile pathA 0x40 0))
        (diskInode wornOut 2) (ascii "a") := by
  have hm := mounted_twoFiles.grown grown_wornOut mounted_twoFiles.count le_rfl
  obtain ⟨pool, hworn, hpool⟩ := grown_wornOut
  have hroot : pool 0 = twoFiles.pool 0 := hpool 0 Nat.one_pos
  rw [hworn] at hm ⊢
  have hfile : fileAt (twoFiles.withPool pool maxNodes) 2
      (components (pathA.drop (ascii "/mnt/ext2").length)) = some 3 := by
    rw [fileAt_withPool, fileAt_pathA]
  -- the pool is exhausted, so the walk fails at the first component
  rcases walkNames_mounted noFiles rfl _ hm.tree hm.node .root hm.count hfile with
    ⟨hfit, -⟩ | ⟨-, fs', hw, hg⟩
  · rw [pathA_parts.2.1] at hfit
    exact absurd hfit (show ¬ maxNodes + 1 ≤ maxNodes by omega)
  have hlook : vfsLookup pathA.length mountTable (mountedOps noFiles) (strRead pathA)
      (twoFiles.withPool pool maxNodes) = (none, fs') := by
    rw [vfsLookup_mounted pathA_parts.1 mountOf_pathA]
    exact hw
  refine ⟨hm, hfile, ?_, ?_, ?_⟩
  · rintro ⟨h, fs'', hfound, -⟩
    rw [hlook] at hfound
    cases (Prod.mk.inj hfound).1
  · rw [recordsNamed_withPool, diskInode_withPool, twoFiles_a.2.1]
  · obtain ⟨pool', rfl, hpool'⟩ := hg
    have hnode : pool' 0 = twoFiles.pool 0 := (hpool' 0 (show 0 < 128 by omega)).trans hroot
    rw [withPool_withPool] at hlook
    rw [diskInode_withPool]
    exact opened_twice hlook hnode

end Bangos.Fs
