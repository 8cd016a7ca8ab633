import Bangos.Fs.Ext2Create

/-!
# What the scans of a directory block touch

`ext2_vfs_finddir`, `ext2_vfs_readdir` and `ext2_vfs_create` walk over the records of a block in
the same way: they look at `rec_len`, stop at 0, do something with the record and go on by
`rec_len`.  `recordScan` is this loop with the bytes of the buffer that it reads or writes; what
the three functions do with a record is their `turn`.

Nothing bounds `rec_len` and `name_len` but their width.  Every walk ends, since it moves forward;
that it stays in the buffer depends on where the records lie that it comes to.
-/

namespace Bangos.Fs

open ByteMem Bangos.Drivers Bangos.Mm

variable {σ ρ : Type} {blk : ℕ → UInt8} {o o' fuel : ℕ} {s s' : σ} {es : List DirEntry}

/-- The places of the `n` bytes from `a` on. -/
def span (a n : ℕ) : List ℕ := List.range' a n

lemma forall_mem_span {a n : ℕ} : (∀ x ∈ span a n, x < 1024) ↔ n = 0 ∨ a + n ≤ 1024 := by
  unfold span
  simp only [List.mem_range'_1]
  constructor
  · intro h
    rcases Nat.eq_zero_or_pos n with h0 | h0
    · exact Or.inl h0
    · have := h (a + n - 1) (by omega)
      omega
  · intro h x hx
    omega

/-! ## The loop -/

/-- What is done with a record: the loop returns (`inl`) or goes on (`inr`), and the bytes of the
buffer that are touched, apart from `rec_len`. -/
abbrev Turn (σ ρ : Type) := DirEntry → σ → (ρ ⊕ σ) × List ℕ

/-- The loop over the records of a block of 1024 bytes from an offset on, with the bytes it
touches; `none` when it is not through after `fuel` turns. -/
def recordScan (blk : ℕ → UInt8) (turn : Turn σ ρ) : ℕ → ℕ → σ → Option ((ρ ⊕ σ) × List ℕ)
  | 0, _, _ => none
  | fuel + 1, offset, s =>
    if offset < 1024 then
      if (entryAt blk offset).recLen = 0 then some (.inr s, span (offset + 4) 2)
      else
        match turn (entryAt blk offset) s with
        | (.inl r, log) => some (.inl r, span (offset + 4) 2 ++ log)
        | (.inr s, log) =>
          (recordScan blk turn fuel (offset + (entryAt blk offset).recLen) s).map fun p =>
            (p.1, span (offset + 4) 2 ++ log ++ p.2)
    else some (.inr s, [])

/-- The turns on a list of records, without the bytes. -/
def runTurns (turn : Turn σ ρ) : List DirEntry → σ → ρ ⊕ σ
  | [], s => .inr s
  | e :: es, s =>
    match (turn e s).1 with
    | .inl r => .inl r
    | .inr s => runTurns turn es s

/-- The loop comes from `o` over the records `es` to `o'`. -/
inductive Chain (blk : ℕ → UInt8) : ℕ → List DirEntry → ℕ → Prop
  | nil (o : ℕ) : Chain blk o [] o
  | cons {o o' : ℕ} {es : List DirEntry} (hlt : o < 1024) (hrec : (entryAt blk o).recLen ≠ 0)
      (hrest : Chain blk (o + (entryAt blk o).recLen) es o') :
      Chain blk o (entryAt blk o :: es) o'

/-- The scan is through, and it has touched the buffer only. -/
def Inside {α : Type} (r : Option (α × List ℕ)) : Prop := ∃ p, r = some p ∧ ∀ a ∈ p.2, a < 1024

/-- **The log is kept beside the loop**: its result is that of the turns on the records of the
block. -/
theorem recordScan_fst (turn : Turn σ ρ) (hfuel : 1024 - o < fuel) (s : σ) :
    (recordScan blk turn fuel o s).map Prod.fst =
      some (runTurns turn (blockEntries blk 1024 (fuel - 1) o) s) := by
  induction fuel generalizing o s with
  | zero => omega
  | succ fuel ih =>
    rw [recordScan, Nat.add_sub_cancel]
    by_cases hlt : o < 1024
    · obtain ⟨f, rfl⟩ : ∃ f, fuel = f + 1 := ⟨fuel - 1, by omega⟩
      rw [if_pos hlt, blockEntries]
      by_cases hrec : (entryAt blk o).recLen = 0
      · rw [if_pos hrec, if_neg fun h => h.2 hrec]
        rfl
      · rw [if_neg hrec, if_pos ⟨hlt, hrec⟩, runTurns]
        cases hturn : turn (entryAt blk o) s with
        | mk r log =>
          cases r with
          | inl r => rfl
          | inr s' =>
            rw [Option.map_map]
            exact ih (by omega) s'
    · rw [if_neg hlt]
      cases fuel with
      | zero => rfl
      | succ f => rw [blockEntries, if_neg fun h => hlt h.1]; rfl

/-- **The loop ends**: it moves forward by `rec_len`. -/
lemma recordScan_isSome (turn : Turn σ ρ) (hfuel : 1024 - o < fuel) (s : σ) :
    (recordScan blk turn fuel o s).isSome = true := by
  rw [← Option.isSome_map, recordScan_fst turn hfuel s]
  rfl

lemma forall_chain_iff {P : List DirEntry → ℕ → Prop} :
    (∀ es o', Chain blk o es o' → P es o') ↔ P [] o ∧ (o < 1024 → (entryAt blk o).recLen ≠ 0 →
      ∀ es o', Chain blk (o + (entryAt blk o).recLen) es o' → P (entryAt blk o :: es) o') := by
  constructor
  · intro h
    exact ⟨h [] o (.nil o), fun hlt hrec es o' hc => h _ o' (.cons hlt hrec hc)⟩
  · rintro ⟨hnil, hcons⟩ es o' hc
    cases hc with
    | nil => exact hnil
    | cons hlt hrec hrest => exact hcons hlt hrec _ o' hrest

lemma inside_some {α : Type} {p : α × List ℕ} : Inside (some p) ↔ ∀ a ∈ p.2, a < 1024 :=
  ⟨fun ⟨_, h, hp⟩ => Option.some.inj h ▸ hp, fun h => ⟨p, rfl, h⟩⟩

lemma inside_map_append {α : Type} {r : Option (α × List ℕ)} {log : List ℕ} (hr : r.isSome = true) :
    Inside (r.map fun p => (p.1, log ++ p.2)) ↔ (∀ a ∈ log, a < 1024) ∧ Inside r := by
  obtain ⟨p, rfl⟩ := Option.isSome_iff_exists.mp hr
  rw [Option.map_some, inside_some, inside_some, List.forall_mem_append]

/-- **Where the loop stays inside**: each record to which it comes has its `rec_len` in the
buffer, and what is done with it stays there. -/
theorem inside_recordScan_iff (turn : Turn σ ρ) (hfuel : 1024 - o < fuel) (s : σ) :
    Inside (recordScan blk turn fuel o s) ↔ ∀ es o', Chain blk o es o' →
      ∀ s', runTurns turn es s = .inr s' → o' < 1024 →
        o' + 6 ≤ 1024 ∧ ((entryAt blk o').recLen ≠ 0 →
          ∀ a ∈ (turn (entryAt blk o') s').2, a < 1024) := by
  induction fuel generalizing o s with
  | zero => omega
  | succ fuel ih =>
    have hfield : (∀ a ∈ span (o + 4) 2, a < 1024) ↔ o + 6 ≤ 1024 := by
      rw [forall_mem_span]
      omega
    rw [forall_chain_iff, recordScan]
    by_cases hlt : o < 1024
    · rw [if_pos hlt]
      by_cases hrec : (entryAt blk o).recLen = 0
      · rw [if_pos hrec, inside_some, hfield]
        simp [runTurns, hlt, hrec]
      · rw [if_neg hrec]
        cases hturn : turn (entryAt blk o) s with
        | mk r log =>
          cases r with
          | inl r =>
            rw [inside_some, List.forall_mem_append, hfield]
            simp [runTurns, hlt, hrec, hturn]
          | inr s1 =>
            have hend : (recordScan blk turn fuel (o + (entryAt blk o).recLen) s1).isSome = true :=
              recordScan_isSome turn (by omega) s1
            rw [inside_map_append hend, List.forall_mem_append, hfield, ih (by omega) s1]
            simp [runTurns, hlt, hrec, hturn]
    · rw [if_neg hlt, inside_some]
      simp [hlt, runTurns]

/-! ## `ext2_vfs_create` -/

/-- What `ext2_vfs_create` does with a record, for a name of length `len`: the new record behind
the name is written if there is room. -/
def createTurn (len : ℕ) : Turn Unit DirEntry := fun e _ =>
  if recordSpace e.nameLen + recordSpace len ≤ e.recLen then
    (.inl e, (e.offset + 6) :: span (e.offset + 4) 2 ++
      span (e.offset + recordSpace e.nameLen) (8 + len))
  else (.inr (), [e.offset + 6])

/-- The walk of `ext2_vfs_create` over `dir_blk`. -/
def createScan (blk : ℕ → UInt8) (len : ℕ) : Option ((DirEntry ⊕ Unit) × List ℕ) :=
  recordScan blk (createTurn len) 1025 0 ()

/-- The record has no room for a name of length `len`. -/
def DirEntry.Tight (len : ℕ) (e : DirEntry) : Prop := e.recLen < recordSpace e.nameLen + recordSpace len

lemma runTurns_createTurn (len : ℕ) (es : List DirEntry) :
    runTurns (createTurn len) es () =
      match es.find? fun e => decide (recordSpace e.nameLen + recordSpace len ≤ e.recLen) with
      | some e => .inl e
      | none => .inr () := by
  induction es with
  | nil => rfl
  | cons e es ih =>
    rw [runTurns, List.find?_cons, createTurn]
    by_cases hroom : recordSpace e.nameLen + recordSpace len ≤ e.recLen
    · simp [hroom]
    · simp only [hroom, if_false, decide_false]
      exact ih

lemma createScan_fst (blk : ℕ → UInt8) (len : ℕ) :
    (createScan blk len).map Prod.fst = some (match splitEntry blk 1024 len with
      | some e => .inl e
      | none => .inr ()) := by
  rw [createScan, recordScan_fst _ (by omega), runTurns_createTurn]
  rfl

lemma runTurns_createTurn_eq_inr {len : ℕ} (u : Unit) :
    runTurns (createTurn len) es () = .inr u ↔ ∀ e ∈ es, e.Tight len := by
  have hfind : (∀ e ∈ es, e.Tight len) ↔
      es.find? (fun e => decide (recordSpace e.nameLen + recordSpace len ≤ e.recLen)) = none := by
    rw [List.find?_eq_none]
    simp [DirEntry.Tight]
  rw [hfind, runTurns_createTurn]
  cases es.find? fun e => decide (recordSpace e.nameLen + recordSpace len ≤ e.recLen) with
  | none => simp
  | some e => simp

/-- The record at `o` lies so that `ext2_vfs_create` stays in the buffer. -/
def CreateFits (blk : ℕ → UInt8) (len o : ℕ) : Prop :=
  o + 6 ≤ 1024 ∧ ((entryAt blk o).recLen ≠ 0 → o + 7 ≤ 1024 ∧
    (¬ (entryAt blk o).Tight len →
      o + recordSpace (entryAt blk o).nameLen + 8 + len ≤ 1024))

lemma createTurn_inside_iff {len : ℕ} (u : Unit) :
    (o + 6 ≤ 1024 ∧ ((entryAt blk o).recLen ≠ 0 →
        ∀ a ∈ (createTurn len (entryAt blk o) u).2, a < 1024)) ↔ CreateFits blk len o := by
  refine and_congr_right fun h6 => imp_congr_right fun _ => ?_
  have hoff : (entryAt blk o).offset = o := rfl
  unfold createTurn DirEntry.Tight
  by_cases hroom : recordSpace (entryAt blk o).nameLen + recordSpace len ≤ (entryAt blk o).recLen
  · rw [if_pos hroom, hoff]
    simp only [List.forall_mem_append, List.forall_mem_cons, forall_mem_span]
    omega
  · rw [if_neg hroom, hoff]
    simp only [List.forall_mem_cons, List.not_mem_nil, IsEmpty.forall_iff, implies_true, and_true]
    omega

lemma inside_createScan_iff (blk : ℕ → UInt8) (len : ℕ) :
    Inside (createScan blk len) ↔ ∀ es o, Chain blk 0 es o → (∀ e ∈ es, e.Tight len) → o < 1024 →
      CreateFits blk len o := by
  rw [createScan, inside_recordScan_iff _ (by omega)]
  simp only [runTurns_createTurn_eq_inr, createTurn_inside_iff]
  exact forall₃_congr fun es o _ => ⟨fun h => h (), fun h _ => h⟩

/-! ## `ext2_vfs_readdir` -/

/-- What `ext2_vfs_readdir` does with a record, for the record number `index` of those in use. -/
def readdirTurn (index : ℕ) : Turn ℕ VfsDirent := fun e curIdx =>
  if e.inode = 0 then (.inr curIdx, span e.offset 4)
  else if e.nameLen = 0 then (.inr curIdx, span e.offset 4 ++ [e.offset + 6])
  else if curIdx = index then
    (.inl ⟨e.inode, e.name.take 127, e.fileType == 2⟩,
      span e.offset 4 ++ [e.offset + 6, e.offset + 7] ++ span (e.offset + 8) (min e.nameLen 127))
  else (.inr (curIdx + 1), span e.offset 4 ++ [e.offset + 6])

/-- The walk of `ext2_vfs_readdir` over a block, when `curIdx` records in use have been passed. -/
def readdirScan (blk : ℕ → UInt8) (index curIdx : ℕ) : Option ((VfsDirent ⊕ ℕ) × List ℕ) :=
  recordScan blk (readdirTurn index) 1025 0 curIdx

lemma live_iff {e : DirEntry} : e.live = true ↔ e.inode ≠ 0 ∧ e.nameLen ≠ 0 := by
  simp [DirEntry.live, Nat.pos_iff_ne_zero]

lemma runTurns_readdirTurn {index cur : ℕ} (es : List DirEntry) (hcur : cur ≤ index) :
    runTurns (readdirTurn index) es cur =
      match (es.filter DirEntry.live)[index - cur]? with
      | some e => .inl ⟨e.inode, e.name.take 127, e.fileType == 2⟩
      | none => .inr (cur + (es.filter DirEntry.live).length) := by
  induction es generalizing cur with
  | nil => rfl
  | cons e es ih =>
    rw [runTurns, readdirTurn]
    by_cases hlive : e.live = true
    · obtain ⟨hino, hlen⟩ := live_iff.mp hlive
      rw [if_neg hino, if_neg hlen, List.filter_cons, if_pos hlive]
      by_cases hidx : cur = index
      · rw [if_pos hidx, hidx, Nat.sub_self]
        rfl
      · rw [if_neg hidx]
        dsimp only
        rw [ih (by omega), show index - cur = index - (cur + 1) + 1 by omega, List.getElem?_cons_succ,
          List.length_cons, Nat.add_assoc, Nat.add_comm 1]
    · rw [List.filter_cons, if_neg hlive]
      by_cases hino : e.inode = 0
      · rw [if_pos hino]
        exact ih hcur
      · have hlen : e.nameLen = 0 := by
          by_contra h
          exact hlive (live_iff.mpr ⟨hino, h⟩)
        rw [if_neg hino, if_pos hlen]
        exact ih hcur

lemma readdirScan_fst (blk : ℕ → UInt8) {index cur : ℕ} (hcur : cur ≤ index) :
    (readdirScan blk index cur).map Prod.fst = some
      (match ((blockEntries blk 1024 1024 0).filter DirEntry.live)[index - cur]? with
      | some e => .inl ⟨e.inode, e.name.take 127, e.fileType == 2⟩
      | none => .inr (cur + ((blockEntries blk 1024 1024 0).filter DirEntry.live).length)) := by
  rw [readdirScan, recordScan_fst _ (by omega), runTurns_readdirTurn _ hcur]

lemma runTurns_readdirTurn_eq_inr {index cur c : ℕ} (hcur : cur ≤ index) :
    runTurns (readdirTurn index) es cur = .inr c ↔
      cur + (es.filter DirEntry.live).length ≤ index ∧ c = cur + (es.filter DirEntry.live).length := by
  rw [runTurns_readdirTurn es hcur]
  cases h : (es.filter DirEntry.live)[index - cur]? with
  | none =>
    have := List.getElem?_eq_none_iff.mp h
    simp only [Sum.inr.injEq]
    omega
  | some e =>
    obtain ⟨hlt, -⟩ := List.getElem?_eq_some_iff.mp h
    simp only [reduceCtorEq, false_iff]
    omega

/-- The record at `o` lies so that `ext2_vfs_readdir` stays in the buffer, when `cur` records in
use have been passed. -/
def ReaddirFits (blk : ℕ → UInt8) (index cur o : ℕ) : Prop :=
  o + 6 ≤ 1024 ∧ ((entryAt blk o).recLen ≠ 0 → (entryAt blk o).inode ≠ 0 → o + 7 ≤ 1024 ∧
    ((entryAt blk o).nameLen ≠ 0 → cur = index → o + 8 + min (entryAt blk o).nameLen 127 ≤ 1024))

lemma readdirTurn_inside_iff {index cur : ℕ} :
    (o + 6 ≤ 1024 ∧ ((entryAt blk o).recLen ≠ 0 →
        ∀ a ∈ (readdirTurn index (entryAt blk o) cur).2, a < 1024)) ↔
      ReaddirFits blk index cur o := by
  refine and_congr_right fun h6 => imp_congr_right fun _ => ?_
  have hoff : (entryAt blk o).offset = o := rfl
  unfold readdirTurn
  split_ifs with hino hlen hidx
  · simp only [hoff, forall_mem_span]
    omega
  · simp only [hoff, List.forall_mem_append, List.forall_mem_cons, List.not_mem_nil,
      IsEmpty.forall_iff, implies_true, and_true, forall_mem_span]
    omega
  · simp only [hoff, List.forall_mem_append, List.forall_mem_cons, List.not_mem_nil,
      IsEmpty.forall_iff, implies_true, and_true, forall_mem_span]
    omega
  · simp only [hoff, List.forall_mem_append, List.forall_mem_cons, List.not_mem_nil,
      IsEmpty.forall_iff, implies_true, and_true, forall_mem_span]
    omega

lemma inside_readdirScan_iff (blk : ℕ → UInt8) {index cur : ℕ} (hcur : cur ≤ index) :
    Inside (readdirScan blk index cur) ↔ ∀ es o, Chain blk 0 es o →
      cur + (es.filter DirEntry.live).length ≤ index → o < 1024 →
        ReaddirFits blk index (cur + (es.filter DirEntry.live).length) o := by
  rw [readdirScan, inside_recordScan_iff _ (by omega)]
  simp only [runTurns_readdirTurn_eq_inr hcur, readdirTurn_inside_iff]
  exact forall₃_congr fun es o _ => ⟨fun h h1 => h _ ⟨h1, rfl⟩, fun h c ⟨h1, h2⟩ => h2 ▸ h h1⟩

/-! ## `ext2_vfs_finddir` -/

/-- `kstrncmp(name, p, kstrlen(name)) == 0` for `p` at place `a` of the buffer, with the bytes of
the buffer that are read: up to the first difference. -/
def kstrncmpLog (blk : ℕ → UInt8) : List UInt8 → ℕ → Bool × List ℕ
  | [], _ => (true, [])
  | c :: name, a =>
    if blk a ≠ c ∨ c = 0 then (blk a == c, [a])
    else ((kstrncmpLog blk name (a + 1)).1, a :: (kstrncmpLog blk name (a + 1)).2)

/-- What `ext2_vfs_finddir` does with a record. -/
def findTurn (blk : ℕ → UInt8) (name : List UInt8) : Turn Ext2 ((DirEntry × Inode) × Ext2) :=
  fun e fs =>
    if e.inode = 0 then (.inr fs, span e.offset 4)
    else if e.nameLen = 0 then (.inr fs, span e.offset 4 ++ [e.offset + 6])
    else if name.length = e.nameLen then
      let cmp := kstrncmpLog blk name (e.offset + 8)
      let log := span e.offset 4 ++ [e.offset + 6] ++ cmp.2
      if cmp.1 then
        match ext2ReadInode fs e.inode with
        | (some inode, fs) => (.inl ((e, inode), fs), log ++ span (e.offset + 8) (min e.nameLen 127))
        | (none, fs) => (.inr fs, log)
      else (.inr fs, log)
    else (.inr fs, span e.offset 4 ++ [e.offset + 6])

/-- The walk of `ext2_vfs_finddir` over a block. -/
def findScan (blk : ℕ → UInt8) (name : List UInt8) (fs : Ext2) :
    Option ((((DirEntry × Inode) × Ext2) ⊕ Ext2) × List ℕ) :=
  recordScan blk (findTurn blk name) 1025 0 fs

section Find

variable {name : List UInt8} {a : ℕ}

lemma kstrncmpLog_eq_true (hname : (0 : UInt8) ∉ name) : (kstrncmpLog blk name a).1 = true ↔
    ∀ x < name.length, blk (a + x) = name.getD x 0 := by
  induction name generalizing a with
  | nil => simp [kstrncmpLog]
  | cons c name ih =>
    rw [List.mem_cons, not_or] at hname
    rw [kstrncmpLog, List.length_cons, Nat.forall_lt_succ_left]
    by_cases hc : blk a = c
    · rw [if_neg (by rintro (h | h); exacts [h hc, hname.1 h.symm]), ih hname.2]
      simp [hc, Nat.add_assoc, Nat.add_comm 1]
    · rw [if_pos (Or.inl hc)]
      simp [hc]

/-- The bytes that the comparison reads lie in the buffer if the name does, or if there is a
difference in the part of it that does. -/
lemma kstrncmpLog_inside_iff (hname : (0 : UInt8) ∉ name) :
    (∀ x ∈ (kstrncmpLog blk name a).2, x < 1024) ↔ name = [] ∨ a + name.length ≤ 1024 ∨
      ∃ x < name.length, a + x < 1024 ∧ blk (a + x) ≠ name.getD x 0 := by
  induction name generalizing a with
  | nil => simp [kstrncmpLog]
  | cons c name ih =>
    rw [List.mem_cons, not_or] at hname
    rw [kstrncmpLog, List.length_cons, Nat.exists_lt_succ_left]
    by_cases hc : blk a = c
    · rw [if_neg (by rintro (h | h); exacts [h hc, hname.1 h.symm]), List.forall_mem_cons,
        ih hname.2]
      simp only [List.getD_cons_zero, List.getD_cons_succ, Nat.add_zero, ← Nat.add_assoc,
        Nat.add_right_comm a _ 1, hc, ne_eq, not_true_eq_false, and_false, false_or,
        reduceCtorEq, ← List.length_eq_zero_iff]
      constructor
      · rintro ⟨ha, h0 | hfit | hdiff⟩
        · exact Or.inl (by omega)
        · exact Or.inl (by omega)
        · exact Or.inr hdiff
      · rintro (hfit | ⟨x, hx, hlt, hdiff⟩)
        · exact ⟨by omega, Or.inr (Or.inl (by omega))⟩
        · exact ⟨by omega, Or.inr (Or.inr ⟨x, hx, hlt, hdiff⟩)⟩
    · rw [if_pos (Or.inl hc)]
      simp only [List.mem_singleton, forall_eq, List.getD_cons_zero, Nat.add_zero, ne_eq, hc,
        not_false_eq_true, and_true, reduceCtorEq, false_or]
      constructor
      · exact fun ha => Or.inr (Or.inl ha)
      · rintro (hfit | ha | ⟨x, -, hlt, -⟩) <;> omega

lemma kstrncmpLog_entryAt (hname : (0 : UInt8) ∉ name) (hlen : name.length = (entryAt blk o).nameLen) :
    (kstrncmpLog blk name (o + 8)).1 = true ↔ name = (entryAt blk o).name := by
  rw [kstrncmpLog_eq_true hname]
  constructor
  · intro h
    refine List.ext_getElem (by rw [length_entryAt_name, hlen]) fun x h1 h2 => ?_
    have := h x h1
    rw [List.getD_eq_getElem _ _ h1] at this
    simp [entryAt, ← this]
  · intro h x hx
    rw [List.getD_eq_getElem _ _ hx]
    simp [h, entryAt]

/-- The record at `o` lies so that `ext2_vfs_finddir` stays in the buffer: if its name is
compared, it lies there, or differs there from the name looked for. -/
def FindFits (blk : ℕ → UInt8) (name : List UInt8) (o : ℕ) : Prop :=
  o + 6 ≤ 1024 ∧ ((entryAt blk o).recLen ≠ 0 → (entryAt blk o).inode ≠ 0 → o + 7 ≤ 1024 ∧
    ((entryAt blk o).nameLen ≠ 0 → name.length = (entryAt blk o).nameLen →
      o + 8 + name.length ≤ 1024 ∨
        ∃ x < name.length, o + 8 + x < 1024 ∧ blk (o + 8 + x) ≠ name.getD x 0))

lemma findTurn_inside_iff (hname : (0 : UInt8) ∉ name) (fs : Ext2) :
    (o + 6 ≤ 1024 ∧ ((entryAt blk o).recLen ≠ 0 →
        ∀ a ∈ (findTurn blk name (entryAt blk o) fs).2, a < 1024)) ↔ FindFits blk name o := by
  refine and_congr_right fun h6 => imp_congr_right fun _ => ?_
  have hoff : (entryAt blk o).offset = o := rfl
  unfold findTurn
  split_ifs with hino hlen hlength
  · simp only [hoff, forall_mem_span]
    omega
  · simp only [hoff, List.forall_mem_append, List.forall_mem_cons, List.not_mem_nil,
      IsEmpty.forall_iff, implies_true, and_true, forall_mem_span]
    omega
  · have hpos : name ≠ [] := by
      rintro rfl
      exact hlen hlength.symm
    have hlog : (∀ a ∈ span o 4 ++ [o + 6] ++ (kstrncmpLog blk name (o + 8)).2, a < 1024) ↔
        o + 7 ≤ 1024 ∧ (o + 8 + name.length ≤ 1024 ∨
          ∃ x < name.length, o + 8 + x < 1024 ∧ blk (o + 8 + x) ≠ name.getD x 0) := by
      rw [List.forall_mem_append, List.forall_mem_append, kstrncmpLog_inside_iff hname,
        forall_mem_span]
      simp only [hpos, false_or, List.mem_singleton, forall_eq]
      exact and_congr_left fun _ => by omega
    refine Iff.trans ?_ (hlog.trans ⟨fun h _ => ⟨h.1, fun _ _ => h.2⟩,
      fun h => ⟨(h hino).1, (h hino).2 hlen hlength⟩⟩)
    rw [hoff]
    by_cases hcmp : (kstrncmpLog blk name (o + 8)).1 = true
    · rw [if_pos hcmp]
      cases ext2ReadInode fs (entryAt blk o).inode with
      | mk r fs' =>
        cases r with
        | none => rfl
        | some inode =>
          -- the copy of the name reads what the comparison has read
          refine List.forall_mem_append.trans (and_iff_left_of_imp fun h => ?_)
          rw [forall_mem_span]
          rcases (hlog.mp h).2 with hfit | ⟨x, hx, -, hdiff⟩
          · omega
          · exact absurd ((kstrncmpLog_eq_true hname).mp hcmp x hx) hdiff
    · rw [if_neg hcmp]
  · simp only [hoff, hlength, List.forall_mem_append, List.forall_mem_cons, List.not_mem_nil,
      IsEmpty.forall_iff, implies_true, and_true, forall_mem_span]
    omega

/-- What the walk gives, as the model of `ext2_vfs_finddir` has it. -/
def findResult : ((DirEntry × Inode) × Ext2) ⊕ Ext2 → Option (DirEntry × Inode) × Ext2
  | .inl (x, fs) => (some x, fs)
  | .inr fs => (none, fs)

lemma runTurns_findTurn (hname : (0 : UInt8) ∉ name) (es : List DirEntry) (fs : Ext2)
    (hes : ∀ e ∈ es, ∃ o, e = entryAt blk o) :
    findResult (runTurns (findTurn blk name) es fs) =
      findEntry name (es.filter DirEntry.live) fs := by
  induction es generalizing fs with
  | nil => rfl
  | cons e es ih =>
    have hrest := fun fs => ih fs fun x hx => hes x (List.mem_cons_of_mem e hx)
    obtain ⟨o, rfl⟩ := hes e List.mem_cons_self
    have hoff : (entryAt blk o).offset = o := rfl
    rw [runTurns, findTurn, List.filter_cons, hoff]
    by_cases hlive : (entryAt blk o).live = true
    · obtain ⟨hino, hlen⟩ := live_iff.mp hlive
      rw [if_neg hino, if_neg hlen, if_pos hlive, findEntry]
      by_cases hlength : name.length = (entryAt blk o).nameLen
      · rw [if_pos hlength]
        have hcmp := kstrncmpLog_entryAt hname hlength
        by_cases heq : name = (entryAt blk o).name
        · rw [if_pos (hcmp.mpr heq), if_pos ⟨hlength, heq⟩]
          cases ext2ReadInode fs (entryAt blk o).inode with
          | mk r fs' =>
            cases r with
            | none => exact hrest fs'
            | some inode => rfl
        · rw [if_neg fun h => heq (hcmp.mp h), if_neg fun h => heq h.2]
          exact hrest fs
      · rw [if_neg hlength, if_neg fun h => hlength h.1]
        exact hrest fs
    · rw [if_neg hlive]
      by_cases hino : (entryAt blk o).inode = 0
      · rw [if_pos hino]
        exact hrest fs
      · have hlen : (entryAt blk o).nameLen = 0 := by
          by_contra h
          exact hlive (live_iff.mpr ⟨hino, h⟩)
        rw [if_neg hino, if_pos hlen]
        exact hrest fs

lemma findScan_fst (hname : (0 : UInt8) ∉ name) (fs : Ext2) :
    (findScan blk name fs).map (fun p => findResult p.1) =
      some (findEntry name ((blockEntries blk 1024 1024 0).filter DirEntry.live) fs) := by
  have h : (findScan blk name fs).map Prod.fst = _ := recordScan_fst (findTurn blk name) (by omega) fs
  rw [← runTurns_findTurn hname _ fs fun e he => mem_blockEntries he]
  exact (Option.map_map findResult Prod.fst _).symm.trans (congrArg (Option.map findResult) h)

lemma ext2ReadInode_of_failing (fs : Ext2) (ino : ℕ) :
    ext2ReadInode (fs.withOutcomes fun _ => some 0) ino =
      (none, fs.withOutcomes fun _ => some 0) := by
  unfold ext2ReadInode ext2ReadBlock readBlocks BlockDev.transfer
  split_ifs
  · rfl
  · rfl
  · rfl

lemma runTurns_findTurn_of_failing (blk : ℕ → UInt8) (name : List UInt8) (es : List DirEntry)
    (fs : Ext2) : runTurns (findTurn blk name) es (fs.withOutcomes fun _ => some 0) =
      .inr (fs.withOutcomes fun _ => some 0) := by
  induction es with
  | nil => rfl
  | cons e es ih =>
    have hgo : (findTurn blk name e (fs.withOutcomes fun _ => some 0)).1 =
        .inr (fs.withOutcomes fun _ => some 0) := by
      unfold findTurn
      rw [ext2ReadInode_of_failing]
      dsimp only
      split_ifs <;> rfl
    rw [runTurns, hgo]
    exact ih

lemma inside_findScan_iff (hname : (0 : UInt8) ∉ name) (fs : Ext2) :
    (∀ outcomes, Inside (findScan blk name (fs.withOutcomes outcomes))) ↔
      ∀ es o, Chain blk 0 es o → o < 1024 → FindFits blk name o := by
  unfold findScan
  simp only [inside_recordScan_iff (findTurn blk name) (show 1024 - 0 < 1025 by omega),
    findTurn_inside_iff hname]
  constructor
  · intro h es o hc
    exact h (fun _ => some 0) es o hc _ (runTurns_findTurn_of_failing blk name es fs)
  · intro h outcomes es o hc _ _
    exact h es o hc

end Find

/-! ## The three walks -/

/-- **The scans of a directory block end, and stay in its 1024 bytes** exactly when the records to
which they come lie so that what they look at, and what `ext2_vfs_create` writes, is inside.  For
`ext2_vfs_finddir` this is for all outcomes of the requests that read inodes on the way. -/
theorem scans_inside_iff (fs : Ext2) (blk : ℕ → UInt8) {name : List UInt8} {index cur : ℕ}
    (hname : (0 : UInt8) ∉ name) (hcur : cur ≤ index) :
    ((∀ outcomes, Inside (findScan blk name (fs.withOutcomes outcomes))) ↔
      ∀ es o, Chain blk 0 es o → o < 1024 → FindFits blk name o) ∧
    (Inside (readdirScan blk index cur) ↔ ∀ es o, Chain blk 0 es o →
      cur + (es.filter DirEntry.live).length ≤ index → o < 1024 →
        ReaddirFits blk index (cur + (es.filter DirEntry.live).length) o) ∧
    (Inside (createScan blk name.length) ↔ ∀ es o, Chain blk 0 es o →
      (∀ e ∈ es, e.Tight name.length) → o < 1024 → CreateFits blk name.length o) :=
  ⟨inside_findScan_iff hname fs, inside_readdirScan_iff blk hcur,
    inside_createScan_iff blk name.length⟩

lemma Walk.of_chain {es' : List DirEntry} (hw : Walk blk 1024 o es) (hc : Chain blk o es' o') :
    ∃ rest, Walk blk 1024 o' rest := by
  induction hc generalizing es with
  | nil o => exact ⟨es, hw⟩
  | cons hlt hrec hrest ih =>
    cases hw with
    | nil => omega
    | cons hroom hmul hfit hrest => exact ih hrest

/-- **On a well-formed block** everything fits. -/
theorem Walk.fits (hw : Walk blk 1024 0 es) {es' : List DirEntry} (hc : Chain blk 0 es' o)
    (ho : o < 1024) (name : List UInt8) (index cur len : ℕ) :
    FindFits blk name o ∧ ReaddirFits blk index cur o ∧ CreateFits blk len o := by
  obtain ⟨rest, hrest⟩ := hw.of_chain hc
  cases hrest with
  | nil => omega
  | cons hroom hmul hfit hrest =>
    have hsp := recordSpace_ge (entryAt blk o).nameLen
    have hlen := recordSpace_ge len
    unfold FindFits ReaddirFits CreateFits DirEntry.Tight
    exact ⟨⟨by omega, fun _ _ => ⟨by omega, fun _ _ => Or.inl (by omega)⟩⟩, by omega, by omega⟩

/-- The scans of the block of a new root directory, with its records `.` and `..`. -/
theorem scans_inside_newRoot :
    (∀ outcomes, Inside (findScan (diskBlock (rootVolume newRoot) 6) [46, 46]
        (clearVolume.withOutcomes outcomes))) ∧
      Inside (readdirScan (diskBlock (rootVolume newRoot) 6) 1 0) ∧
      Inside (createScan (diskBlock (rootVolume newRoot) 6) [46, 46].length) := by
  have hw := walk_newRoot
  obtain ⟨hfind, hreaddir, hcreate⟩ := scans_inside_iff clearVolume (diskBlock (rootVolume newRoot) 6)
    (show (0 : UInt8) ∉ [46, 46] by decide) (Nat.zero_le 1)
  exact ⟨hfind.mpr fun es o hc ho => (hw.fits hc ho [46, 46] 0 0 0).1,
    hreaddir.mpr fun es o hc _ ho => (hw.fits hc ho [] 1 _ 0).2.1,
    hcreate.mpr fun es o hc _ ho => (hw.fits hc ho [] 0 0 _).2.2⟩

/-- A block whose first record, not in use, leaves four bytes behind it. -/
def shortTail : ℕ → UInt8 := putLe zeros 4 2 1020

/-- A block whose only record is longer than the block. -/
def longRecord : ℕ → UInt8 := putLe zeros 4 2 2048

lemma not_inside {α : Type} {r : Option (α × List ℕ)} {log : List ℕ} {a : ℕ}
    (hlog : r.map Prod.snd = some log) (hmem : a ∈ log) (ha : 1024 ≤ a) : ¬ Inside r := by
  rintro ⟨p, rfl, hin⟩
  rw [← Option.some.inj hlog] at hmem
  have := hin a hmem
  omega

/-- **Out of the block**: behind a record of length 1020 the scans of `ext2_vfs_finddir` and
`ext2_vfs_readdir` look for `rec_len` in the two bytes after the buffer, and behind a record of
length 2048 `ext2_vfs_create` writes a name of 1016 bytes over the end. -/
theorem scans_leave_block :
    ¬ Inside (findScan shortTail [97] clearVolume) ∧ ¬ Inside (readdirScan shortTail 0 0) ∧
      ¬ Inside (createScan longRecord 1016) := by
  have hfind : (findScan shortTail [97] clearVolume).map Prod.snd =
      some [4, 5, 0, 1, 2, 3, 1024, 1025] := by
    decide +kernel
  have hreaddir : (readdirScan shortTail 0 0).map Prod.snd = some [4, 5, 0, 1, 2, 3, 1024, 1025] := by
    decide +kernel
  have hcreate : (createScan longRecord 1016).map Prod.snd =
      some ([4, 5, 6, 4, 5] ++ List.range' 8 1024) := by
    decide +kernel
  refine ⟨not_inside hfind (a := 1024) (by decide) le_rfl,
    not_inside hreaddir (a := 1024) (by decide) le_rfl,
    not_inside hcreate (a := 1024) ?_ le_rfl⟩
  exact List.mem_append_right _ (List.mem_range'_1.mpr (by omega))

end Bangos.Fs
