import Bangos.Fs.TarfsVfs
import Bangos.Syscall.UserPointers

/-!
# Listing a directory (`SYS_GETDENTS64`)

A call writes as many records as fit the buffer, from the entry on that the offset of the
descriptor names, and moves the offset behind them.  A process that calls until it gets 0 and
follows `d_reclen` through each buffer sees every entry of the directory once, in order, whatever
the sizes of its buffers.
-/

namespace Bangos.Syscall

open ByteMem Bangos.Mm Bangos.Fs Bangos.Proc

/-! ## The call with its position -/

/-- `SYS_GETDENTS64` on a descriptor of a directory with the offset `pos`: the result, and the
offset afterwards. -/
def getdents64 (readdir : ℕ → Option DirItem) (dirp count pos : ℕ) : UserM (ℤ × ℕ) := do
  if dirp = 0 ∨ count = 0 then pure (-14, pos)
  else if inKernelHalf dirp = true then pure (-14, pos)
  else
    let r ← getdentsLoop readdir dirp count count 0 (pos % 2 ^ 32)
    pure (r.1, r.2.getD pos)

/-- **The call** with its position is that of `sysGetdents64`. -/
theorem getdents64_fst {env : Env} {fd : ℤ} {d : FileDesc} {id : ℕ}
    {readdir : ℕ → Option DirItem} (hfd : fdNode env fd = some (d, .file id))
    (hdir : env.isDir id = true) (hread : env.readdir id = some readdir) (dirp count : ℕ) :
    Prod.fst <$> getdents64 readdir dirp count d.offset =
      sysGetdents64 inKernelHalf env fd dirp count := by
  have hrange : ¬ badFd fd := by
    intro hbad
    unfold fdNode at hfd
    rw [dif_neg (by unfold badFd at hbad; omega)] at hfd
    cases hfd
  unfold getdents64 sysGetdents64
  by_cases h0 : dirp = 0 ∨ count = 0
  · rw [if_pos h0, if_pos (Or.inr h0), map_pure]
  · have htest : ¬ (badFd fd ∨ dirp = 0 ∨ count = 0) := not_or.mpr ⟨hrange, h0⟩
    simp only [if_neg h0, if_neg htest, hfd]
    by_cases hker : inKernelHalf dirp = true
    · rw [if_pos hker, if_pos hker, map_pure]
    · rw [if_neg hker, if_neg hker]
      simp only [hdir, hread, map_bind, map_pure]

/-! ## Stores to a buffer -/

/-- The bytes of a little-endian number. -/
def leBytes : ℕ → ℕ → List UInt8
  | 0, _ => []
  | n + 1, v => UInt8.ofNat v :: leBytes n (v / 256)

@[simp] lemma length_leBytes (n v : ℕ) : (leBytes n v).length = n := by
  induction n generalizing v with
  | zero => rfl
  | succ n ih => rw [leBytes, List.length_cons, ih]

lemma getD_leBytes {n v k : ℕ} (hk : k < n) : (leBytes n v).getD k 0 = UInt8.ofNat (v / 256 ^ k) := by
  induction n generalizing v k with
  | zero => omega
  | succ n ih =>
    cases k with
    | zero => rw [leBytes, List.getD_cons_zero, pow_zero, Nat.div_one]
    | succ k =>
      rw [leBytes, List.getD_cons_succ, ih (by omega), Nat.div_div_eq_div_mul, ← Nat.pow_succ']

lemma storeLe_eq (a n v : ℕ) : storeLe a n v = storeBytes a (leBytes n v) := by
  induction n generalizing a v with
  | zero => rfl
  | succ n ih => rw [storeLe, leBytes, storeBytes, ih]

lemma storeBytes_append (a : ℕ) (l l' : List UInt8) :
    storeBytes a (l ++ l') = storeBytes a l >>= fun _ => storeBytes (a + l.length) l' := by
  induction l generalizing a with
  | nil => simp [storeBytes]
  | cons c l ih =>
    rw [List.cons_append, storeBytes, storeBytes, ih, bind_assoc, List.length_cons,
      show a + 1 + l.length = a + (l.length + 1) by omega]

/-- The bytes of the record of an entry. -/
def recordBytes (e : DirItem) (index : ℕ) : List UInt8 :=
  leBytes 8 e.1 ++ (leBytes 8 (index + 1) ++ (leBytes 2 (reclenOf e) ++
    ([if e.2.1 then 4 else 8] ++ (e.2.2 ++ [0]))))

lemma storeRecord_eq {α : Type} (d index : ℕ) (e : DirItem) (k : UserM α) :
    (do
      storeLe d 8 e.1
      storeLe (d + 8) 8 (index + 1)
      storeLe (d + 16) 2 (reclenOf e)
      store (d + 18) (if e.2.1 then 4 else 8)
      storeBytes (d + 19) (e.2.2 ++ [0])
      k) = storeBytes d (recordBytes e index) >>= fun _ => k := by
  have hone : ∀ (a : ℕ) (c : UInt8), storeBytes a [c] = store a c := fun a c => by
    rw [storeBytes, storeBytes]
    exact bind_pure_unit
  simp only [recordBytes, storeBytes_append, length_leBytes, bind_assoc, storeLe_eq, hone,
    List.length_singleton]

lemma run_then {α : Type} (x : UserM Unit) (y : UserM α) (m : UserMem) :
    (x >>= fun _ => y).run m = y.run (x.run m).2 := rfl

/-- The buffer at `dirp`; addresses wrap around. -/
def bufferAt (bytes : ℕ → UInt8) (dirp k : ℕ) : UInt8 := bytes (u64 (dirp + k))

lemma u64_add_inj {a j k : ℕ} (hj : j < 2 ^ 64) (hk : k < 2 ^ 64) (h : u64 (a + j) = u64 (a + k)) :
    j = k := by
  unfold u64 at h
  omega

lemma bufferAt_storeBytes (m : UserMem) (dirp : ℕ) (l : List UInt8) {j k : ℕ}
    (hj : j + l.length ≤ 2 ^ 64) (hk : k < 2 ^ 64) :
    bufferAt ((storeBytes (dirp + j) l).run m).2.bytes dirp k =
      ByteMem.store (bufferAt m.bytes dirp) j l k := by
  induction l generalizing m j with
  | nil =>
    unfold ByteMem.store
    rw [if_neg (by rw [List.length_nil]; omega)]
    rfl
  | cons c l ih =>
    rw [List.length_cons] at hj
    have hstep : (storeBytes (dirp + j) (c :: l)).run m = (storeBytes (dirp + (j + 1)) l).run
        ⟨Function.update m.bytes (u64 (dirp + j)) c, u64 (dirp + j) :: m.used⟩ := rfl
    rw [hstep, ih _ (by omega)]
    unfold ByteMem.store bufferAt
    dsimp only
    rw [List.length_cons]
    by_cases hkj : k = j
    · rw [if_neg (by omega), if_pos (by omega), hkj, Function.update_self, Nat.sub_self]
      rfl
    · have hne : u64 (dirp + k) ≠ u64 (dirp + j) := fun h =>
        hkj (u64_add_inj hk (by omega) h)
      rw [Function.update_of_ne hne]
      by_cases hin : j + 1 ≤ k ∧ k < j + 1 + l.length
      · obtain ⟨i, rfl⟩ : ∃ i, k = j + 1 + i := ⟨k - (j + 1), by omega⟩
        rw [if_pos hin, if_pos (by omega), show j + 1 + i - (j + 1) = i by omega,
          show j + 1 + i - j = i + 1 by omega, List.getD_cons_succ]
      · rw [if_neg hin, if_neg (by omega)]

lemma used_storeBytes (m : UserMem) (dirp j : ℕ) (l : List UInt8) {a : ℕ}
    (ha : a ∈ ((storeBytes (dirp + j) l).run m).2.used) :
    a ∈ m.used ∨ ∃ k, k < j + l.length ∧ a = u64 (dirp + k) := by
  induction l generalizing m j with
  | nil => exact Or.inl ha
  | cons c l ih =>
    have hstep : (storeBytes (dirp + j) (c :: l)).run m = (storeBytes (dirp + (j + 1)) l).run
        ⟨Function.update m.bytes (u64 (dirp + j)) c, u64 (dirp + j) :: m.used⟩ := rfl
    rw [hstep] at ha
    rw [List.length_cons]
    rcases ih _ _ ha with h | ⟨k, hk, rfl⟩
    · rcases List.mem_cons.mp h with rfl | h
      · exact Or.inr ⟨j, by omega, rfl⟩
      · exact Or.inl h
    · exact Or.inr ⟨k, by omega, rfl⟩

/-! ## Reading the records back -/

/-- `struct linux_dirent64`. -/
structure Dirent64 where
  dIno : ℕ
  dOff : ℕ
  dReclen : ℕ
  dType : ℕ
  dName : List UInt8
deriving DecidableEq

/-- The record at `a` of a buffer. -/
def direntAt (v : ℕ → UInt8) (a : ℕ) : Dirent64 where
  dIno := le v a 8
  dOff := le v (a + 8) 8
  dReclen := le v (a + 16) 2
  dType := (v (a + 18)).toNat
  dName := cStr v (le v (a + 16) 2 - 19) (a + 19)

/-- The records from `a` to `n` of a buffer, each `d_reclen` bytes behind the one before; `none` if
they do not end at `n`. -/
def decodeDirents (v : ℕ → UInt8) : ℕ → ℕ → ℕ → Option (List Dirent64)
  | 0, _, _ => none
  | fuel + 1, a, n =>
    if a = n then some []
    else if (direntAt v a).dReclen = 0 ∨ n < a + (direntAt v a).dReclen then none
    else (decodeDirents v fuel (a + (direntAt v a).dReclen) n).map (direntAt v a :: ·)

/-- The record that entry `index` of a directory should have. -/
def direntOf (index : ℕ) (e : DirItem) : Dirent64 where
  dIno := e.1
  dOff := index + 1
  dReclen := reclenOf e
  dType := if e.2.1 then 4 else 8
  dName := e.2.2

/-- The records that the entries of a directory should have. -/
def listing (es : List DirItem) : List Dirent64 := es.mapIdx direntOf

/-- An entry that fits `vfs_dirent_t`. -/
structure FitsDirent (e : DirItem) : Prop where
  ino : e.1 < 2 ^ 32
  name : e.2.2.length ≤ 127
  no_nul : (0 : UInt8) ∉ e.2.2

/-- `readdir` yields the entries `es`: it succeeds for their numbers and fails behind them. -/
structure Lists (readdir : ℕ → Option DirItem) (es : List DirItem) : Prop where
  length_lt : es.length < 2 ^ 32
  get : ∀ i < 2 ^ 32, readdir i = es[i]?
  fits : ∀ e ∈ es, FitsDirent e

lemma reclenOf_bounds {e : DirItem} (he : FitsDirent e) :
    e.2.2.length + 20 ≤ reclenOf e ∧ 32 ≤ reclenOf e ∧ reclenOf e ≤ 152 := by
  have := he.name
  unfold reclenOf
  omega

lemma length_recordBytes (e : DirItem) (index : ℕ) :
    (recordBytes e index).length = 20 + e.2.2.length := by
  simp only [recordBytes, List.length_append, length_leBytes, List.length_singleton]
  omega

lemma le_store_leBytes (v : ℕ → UInt8) (a n x : ℕ) (pre post : List UInt8) :
    le (ByteMem.store v a (pre ++ (leBytes n x ++ post))) (a + pre.length) n = x % 256 ^ n := by
  rw [← le_putLe_self (fun _ => 0) 0 n x]
  refine le_shift fun k hk => ?_
  unfold ByteMem.store putLe
  rw [if_pos (by simp only [List.length_append, length_leBytes]; omega), if_pos (by omega),
    List.getD_append_right _ _ _ _ (by omega), List.getD_append _ _ _ _ (by rw [length_leBytes]; omega),
    getD_leBytes (by omega), show a + pre.length + k - a - pre.length = 0 + k - 0 by omega]

lemma isStr_store (v : ℕ → UInt8) (a : ℕ) (pre s : List UInt8) (hs : (0 : UInt8) ∉ s) :
    IsStr (ByteMem.store v a (pre ++ (s ++ [0]))) (a + pre.length) s := by
  induction s generalizing pre with
  | nil =>
    change ByteMem.store v a (pre ++ [0]) (a + pre.length) = 0
    unfold ByteMem.store
    rw [if_pos (by simp), Nat.add_sub_cancel_left, List.getD_append_right _ _ _ _ le_rfl,
      Nat.sub_self]
    rfl
  | cons c s ih =>
    rw [List.mem_cons, not_or] at hs
    have hrest := ih (pre ++ [c]) hs.2
    rw [List.append_assoc, List.singleton_append, List.length_append, List.length_singleton,
      ← Nat.add_assoc] at hrest
    refine ⟨?_, fun h => hs.1 h.symm, hrest⟩
    unfold ByteMem.store
    rw [if_pos (by simp), Nat.add_sub_cancel_left, List.getD_append_right _ _ _ _ le_rfl,
      Nat.sub_self]
    rfl

/-- **A record is read back** as it was written. -/
lemma direntAt_store {e : DirItem} {index : ℕ} (v : ℕ → UInt8) (a : ℕ) (he : FitsDirent e)
    (hindex : index + 1 < 2 ^ 64) :
    direntAt (ByteMem.store v a (recordBytes e index)) a = direntOf index e := by
  have hrec := reclenOf_bounds he
  have hino := he.ino
  have h1 : le (ByteMem.store v a (recordBytes e index)) a 8 = e.1 := by
    have h : le _ a 8 = _ := le_store_leBytes v a 8 e.1 [] (leBytes 8 (index + 1) ++
      (leBytes 2 (reclenOf e) ++ ([if e.2.1 then 4 else 8] ++ (e.2.2 ++ [0]))))
    rw [Nat.mod_eq_of_lt (by omega)] at h
    exact h
  have h2 : le (ByteMem.store v a (recordBytes e index)) (a + 8) 8 = index + 1 := by
    have h := le_store_leBytes v a 8 (index + 1) (leBytes 8 e.1)
      (leBytes 2 (reclenOf e) ++ ([if e.2.1 then 4 else 8] ++ (e.2.2 ++ [0])))
    rw [Nat.mod_eq_of_lt (by omega), length_leBytes] at h
    exact h
  have h3 : le (ByteMem.store v a (recordBytes e index)) (a + 16) 2 = reclenOf e := by
    have h := le_store_leBytes v a 2 (reclenOf e) (leBytes 8 e.1 ++ leBytes 8 (index + 1))
      ([if e.2.1 then 4 else 8] ++ (e.2.2 ++ [0]))
    rw [Nat.mod_eq_of_lt (by omega), List.length_append, length_leBytes, length_leBytes,
      List.append_assoc] at h
    exact h
  have h4 : (ByteMem.store v a (recordBytes e index) (a + 18)).toNat = if e.2.1 then 4 else 8 := by
    have hget : (recordBytes e index).getD 18 0 = if e.2.1 then 4 else 8 := by
      unfold recordBytes
      rw [List.getD_append_right _ _ _ _ (by simp), List.getD_append_right _ _ _ _ (by simp),
        List.getD_append_right _ _ _ _ (by simp)]
      simp only [length_leBytes]
      rfl
    unfold ByteMem.store
    rw [if_pos (by rw [length_recordBytes]; omega), Nat.add_sub_cancel_left, hget]
    split_ifs <;> rfl
  have h5 : cStr (ByteMem.store v a (recordBytes e index)) (reclenOf e - 19) (a + 19) = e.2.2 := by
    have h := isStr_store v a (leBytes 8 e.1 ++ (leBytes 8 (index + 1) ++ (leBytes 2 (reclenOf e) ++
      [if e.2.1 then 4 else 8]))) e.2.2 he.no_nul
    simp only [List.length_append, length_leBytes, List.length_singleton, List.append_assoc] at h
    exact h.cStr_eq (by omega)
  unfold direntAt direntOf
  rw [h1, h2, h3, h4, h5]

/-! ## Records one behind the other -/

/-- The records `rs` lie from `a` to `n` of a buffer, each as long as its `d_reclen` says. -/
inductive Packed (v : ℕ → UInt8) : ℕ → List Dirent64 → ℕ → Prop
  | nil (a : ℕ) : Packed v a [] a
  | cons {a n : ℕ} {rs : List Dirent64} (hlen : 19 ≤ (direntAt v a).dReclen)
      (hrest : Packed v (a + (direntAt v a).dReclen) rs n) : Packed v a (direntAt v a :: rs) n

variable {v v' : ℕ → UInt8} {a n : ℕ} {rs : List Dirent64}

lemma Packed.le (h : Packed v a rs n) : a ≤ n := by
  induction h with
  | nil a => exact le_rfl
  | cons hlen hrest ih => omega

lemma cStr_congr {k : ℕ} (h : ∀ x, a ≤ x → x < a + k → v x = v' x) : cStr v k a = cStr v' k a := by
  induction k generalizing a with
  | zero => rfl
  | succ k ih =>
    rw [cStr, cStr, h a le_rfl (by omega), ih fun x h1 h2 => h x (by omega) (by omega)]

lemma direntAt_congr (hlen : 19 ≤ (direntAt v a).dReclen)
    (h : ∀ x, a ≤ x → x < a + (direntAt v a).dReclen → v x = v' x) : direntAt v a = direntAt v' a := by
  have hrec : (direntAt v a).dReclen = le v (a + 16) 2 := rfl
  rw [hrec] at hlen h
  have h3 : le v (a + 16) 2 = le v' (a + 16) 2 := le_congr fun x h1 h2 => h x (by omega) (by omega)
  have h1 : le v a 8 = le v' a 8 := le_congr fun x h1 h2 => h x (by omega) (by omega)
  have h2 : le v (a + 8) 8 = le v' (a + 8) 8 := le_congr fun x h1 h2 => h x (by omega) (by omega)
  have h4 : v (a + 18) = v' (a + 18) := h _ (by omega) (by omega)
  have h5 : cStr v (le v (a + 16) 2 - 19) (a + 19) = cStr v' (le v (a + 16) 2 - 19) (a + 19) :=
    cStr_congr fun x h1 h2 => h x (by omega) (by omega)
  unfold direntAt
  rw [h1, h2, h4, h5, h3]

lemma Packed.congr (h : Packed v a rs n) (heq : ∀ x, a ≤ x → x < n → v x = v' x) :
    Packed v' a rs n := by
  induction h with
  | nil a => exact .nil a
  | @cons a n rs hlen hrest ih =>
    have hle := hrest.le
    have hsame := direntAt_congr hlen fun x h1 h2 => heq x h1 (by omega)
    have hih := ih fun x h1 h2 => heq x (by omega) h2
    rw [hsame] at hlen hih ⊢
    exact .cons hlen hih

lemma Packed.snoc (h : Packed v a rs n) (hlen : 19 ≤ (direntAt v n).dReclen) :
    Packed v a (rs ++ [direntAt v n]) (n + (direntAt v n).dReclen) := by
  induction h with
  | nil a => exact .cons hlen (.nil _)
  | cons hlen' hrest ih => exact .cons hlen' (ih hlen)

lemma Packed.decode (h : Packed v a rs n) {fuel : ℕ} (hfuel : n < a + fuel) :
    decodeDirents v fuel a n = some rs := by
  induction h generalizing fuel with
  | nil a =>
    obtain ⟨f, rfl⟩ : ∃ f, fuel = f + 1 := ⟨fuel - 1, by omega⟩
    rw [decodeDirents, if_pos rfl]
  | @cons a n rs hlen hrest ih =>
    have hle := hrest.le
    obtain ⟨f, rfl⟩ : ∃ f, fuel = f + 1 := ⟨fuel - 1, by omega⟩
    rw [decodeDirents, if_neg (by omega), if_neg (by omega), ih (by omega)]
    rfl

/-! ## One call -/

section Call

variable {readdir : ℕ → Option DirItem} {es : List DirItem} {dirp count p k w : ℕ}

/-- The records of `k` entries from number `p` on. -/
def window (es : List DirItem) (p k : ℕ) : List Dirent64 := ((listing es).drop p).take k

lemma window_succ {e : DirItem} (he : es[p + k]? = some e) :
    window es p (k + 1) = window es p k ++ [direntOf (p + k) e] := by
  unfold window listing
  rw [List.take_add_one, List.getElem?_drop, List.getElem?_mapIdx, he]
  rfl

/-- What a call has done when `k` records have been written, from entry `p` on, into the first `w`
bytes of the buffer. -/
structure Filled (es : List DirItem) (dirp count p k w : ℕ) (m m' : UserMem) : Prop where
  entries : p + k ≤ es.length
  room : w ≤ count
  size : w ≤ k * 152
  nonempty : w = 0 → k = 0
  records : Packed (bufferAt m'.bytes dirp) 0 (window es p k) w
  used : ∀ a ∈ m'.used, a ∈ m.used ∨ ∃ j < count, a = u64 (dirp + j)

lemma Filled.zero (hp : p ≤ es.length) (m : UserMem) : Filled es dirp count p 0 0 m m where
  entries := hp
  room := Nat.zero_le _
  size := Nat.zero_le _
  nonempty := fun _ => rfl
  records := .nil 0
  used := fun _ h => Or.inl h

/-- **One turn** of the loop. -/
lemma Filled.turn {m m' : UserMem} {e : DirItem} (h : Filled es dirp count p k w m m')
    (hl : Lists readdir es) (hcount : count < 2 ^ 64) (he : es[p + k]? = some e)
    (hfit : w + reclenOf e ≤ count) :
    Filled es dirp count p (k + 1) (w + reclenOf e) m
      ((storeBytes (dirp + w) (recordBytes e (p + k))).run m').2 := by
  have hfits := hl.fits e (List.mem_of_getElem? he)
  have hb := reclenOf_bounds hfits
  obtain ⟨hlt, -⟩ := List.getElem?_eq_some_iff.mp he
  have hlen := length_recordBytes e (p + k)
  have hl32 := hl.length_lt
  have hview : ∀ x < 2 ^ 64, bufferAt ((storeBytes (dirp + w)
      (recordBytes e (p + k))).run m').2.bytes dirp x =
      ByteMem.store (bufferAt m'.bytes dirp) w (recordBytes e (p + k)) x := fun x hx =>
    bufferAt_storeBytes m' dirp _ (by omega) hx
  have hnew := direntAt_store (bufferAt m'.bytes dirp) w hfits (show p + k + 1 < 2 ^ 64 by omega)
  have hrec : (direntOf (p + k) e).dReclen = reclenOf e := rfl
  refine ⟨by omega, hfit, by have := h.size; omega, fun h0 => by omega, ?_, fun a ha => ?_⟩
  · -- the records of before are not touched
    have hold : Packed (ByteMem.store (bufferAt m'.bytes dirp) w (recordBytes e (p + k))) 0
        (window es p k) w := h.records.congr fun x _ hx => by
      unfold ByteMem.store
      rw [if_neg (by omega)]
    have hsnoc := hold.snoc (by rw [hnew, hrec]; omega)
    rw [hnew, hrec, ← window_succ he] at hsnoc
    exact hsnoc.congr fun x _ hx => (hview x (by omega)).symm
  · rcases used_storeBytes m' dirp w _ ha with ha | ⟨j, hj, rfl⟩
    · exact h.used a ha
    · exact Or.inr ⟨j, by omega, rfl⟩

/-- How a call ends: with -22 and nothing done if the first record does not fit, else with the
number of bytes written. -/
def Ends (es : List DirItem) (dirp count p : ℕ) (m : UserMem) (r : (ℤ × Option ℕ) × UserMem) :
    Prop :=
  ((∃ e, es[p]? = some e ∧ count < reclenOf e) ∧ r = ((-22, none), m)) ∨
    ∃ k w, r.1 = (i64 w, some (p + k)) ∧ Filled es dirp count p k w m r.2 ∧
      ((∃ e, es[p]? = some e ∧ reclenOf e ≤ count) ∧ 0 < k ∨ es.length = p ∧ k = 0)

/-- **The loop** of `SYS_GETDENTS64`. -/
lemma getdentsLoop_ends {m m' : UserMem} (hl : Lists readdir es) (hcount : count < 2 ^ 64)
    (hpos : 0 < count) {fuel : ℕ} (h : Filled es dirp count p k w m m')
    (hfirst : 0 < k → ∃ e, es[p]? = some e ∧ reclenOf e ≤ count) (hm : k = 0 → m' = m)
    (hfuel : count ≤ w + fuel) :
    Ends es dirp count p m ((getdentsLoop readdir dirp count fuel w (p + k)).run m') := by
  have hl32 := hl.length_lt
  have hent := h.entries
  have hsize := h.size
  have hw64 : k * 152 < 2 ^ 40 := by omega
  induction fuel generalizing k w m' with
  | zero =>
    have hk : 0 < k := by
      by_contra h0
      have := h.nonempty
      omega
    exact Or.inr ⟨k, w, rfl, h, Or.inl ⟨hfirst hk, hk⟩⟩
  | succ fuel ih =>
    rw [getdentsLoop]
    by_cases hfull : count ≤ w
    · have hk : 0 < k := by omega
      rw [if_pos hfull]
      exact Or.inr ⟨k, w, rfl, h, Or.inl ⟨hfirst hk, hk⟩⟩
    rw [if_neg hfull, hl.get (p + k) (by omega)]
    cases he : es[p + k]? with
    | none =>
      -- the end of the directory
      have hend := List.getElem?_eq_none_iff.mp he
      refine Or.inr ⟨k, w, rfl, h, ?_⟩
      by_cases hk : 0 < k
      · exact Or.inl ⟨hfirst hk, hk⟩
      · exact Or.inr ⟨by omega, by omega⟩
    | some e =>
      have hb := reclenOf_bounds (hl.fits e (List.mem_of_getElem? he))
      obtain ⟨hlt, -⟩ := List.getElem?_eq_some_iff.mp he
      have hsum : u64 (w + reclenOf e) = w + reclenOf e := Nat.mod_eq_of_lt (by omega)
      dsimp only
      rw [hsum]
      by_cases hfit : count < w + reclenOf e
      · rw [if_pos hfit]
        by_cases hw : w = 0
        · obtain rfl := h.nonempty hw
          rw [if_pos hw, hm rfl]
          exact Or.inl ⟨⟨e, he, by omega⟩, rfl⟩
        · have hk : 0 < k := by omega
          rw [if_neg hw]
          exact Or.inr ⟨k, w, rfl, h, Or.inl ⟨hfirst hk, hk⟩⟩
      · have hturn := h.turn hl hcount he (by omega)
        have hindex : (p + k + 1) % 2 ^ 32 = p + k + 1 := Nat.mod_eq_of_lt (by omega)
        rw [if_neg hfit, hindex, storeRecord_eq, Nat.add_assoc p k 1, run_then]
        refine ih hturn (fun _ => ?_) (fun h0 => by omega) (by omega) hturn.entries hturn.size
          (by have := hturn.entries; omega)
        rcases Nat.eq_zero_or_pos k with rfl | hk
        · exact ⟨e, he, by omega⟩
        · exact hfirst hk

end Call

/-! ## Sequences of calls -/

/-- A call on a descriptor: the buffer, its size, and the memory when the call is made. -/
structure DirCall where
  dirp : ℕ
  count : ℕ
  bytes : ℕ → UInt8

/-- What a call returns, the offset of the descriptor afterwards, and the memory with the addresses
it has used. -/
def DirCall.reply (readdir : ℕ → Option DirItem) (pos : ℕ) (c : DirCall) : (ℤ × ℕ) × UserMem :=
  (getdents64 readdir c.dirp c.count pos).run ⟨c.bytes, []⟩

/-- The records that a process finds in its buffer after a call; none if the call has failed. -/
def DirCall.records (readdir : ℕ → Option DirItem) (pos : ℕ) (c : DirCall) :
    Option (List Dirent64) :=
  let r := c.reply readdir pos
  if r.1.1 < 0 then some []
  else decodeDirents (bufferAt r.2.bytes c.dirp) (r.1.1.toNat + 1) 0 r.1.1.toNat

/-- The offset after a sequence of calls. -/
def posAfter (readdir : ℕ → Option DirItem) (pos : ℕ) (calls : List DirCall) : ℕ :=
  calls.foldl (fun pos c => (c.reply readdir pos).1.2) pos

/-- The records of a sequence of calls, one call after the other. -/
def recordsOf (readdir : ℕ → Option DirItem) : ℕ → List DirCall → Option (List Dirent64)
  | _, [] => some []
  | pos, c :: calls => do
    let rs ← c.records readdir pos
    let rest ← recordsOf readdir (c.reply readdir pos).1.2 calls
    some (rs ++ rest)

section Sequence

variable {readdir : ℕ → Option DirItem} {es : List DirItem} {p k l : ℕ}

lemma window_append (es : List DirItem) (p k l : ℕ) :
    window es p k ++ window es (p + k) l = window es p (k + l) := by
  unfold window
  rw [List.take_add, List.drop_drop]

lemma i64_of_lt {n : ℕ} (h : n < 2 ^ 63) : i64 n = n := by
  unfold i64 Int.bmod
  dsimp only
  split_ifs <;> omega

/-- The outcomes of a call. -/
inductive Outcome (es : List DirItem) (p : ℕ) (c : DirCall) : (ℤ × ℕ) × UserMem → Prop
  /-- The pointer or the size is refused. -/
  | refused (h : c.dirp = 0 ∨ c.count = 0 ∨ kernelHalf ≤ c.dirp) :
      Outcome es p c ((-14, p), ⟨c.bytes, []⟩)
  /-- The next record does not fit. -/
  | small {e : DirItem} (hcount : 0 < c.count) (he : es[p]? = some e) (hlt : c.count < reclenOf e) :
      Outcome es p c ((-22, p), ⟨c.bytes, []⟩)
  /-- There are `k` records in the first `w` bytes of the buffer. -/
  | filled {k w : ℕ} {m : UserMem} (hcount : 0 < c.count)
      (h : Filled es c.dirp c.count p k w ⟨c.bytes, []⟩ m)
      (hend : (∃ e, es[p]? = some e ∧ reclenOf e ≤ c.count) ∧ 0 < k ∨ es.length = p ∧ k = 0) :
      Outcome es p c ((i64 w, p + k), m)

/-- **One call.** -/
lemma DirCall.outcome (hl : Lists readdir es) (hp : p ≤ es.length) {c : DirCall}
    (hcount : c.count < 2 ^ 64) : Outcome es p c (c.reply readdir p) := by
  have hl32 := hl.length_lt
  unfold DirCall.reply getdents64
  by_cases h0 : c.dirp = 0 ∨ c.count = 0
  · rw [if_pos h0]
    exact .refused (h0.imp_right Or.inl)
  rw [if_neg h0]
  by_cases hker : inKernelHalf c.dirp = true
  · rw [if_pos hker]
    exact .refused (Or.inr (Or.inr (of_decide_eq_true hker)))
  rw [if_neg hker, show p % 2 ^ 32 = p + 0 by omega]
  have hzero : Filled es c.dirp c.count p 0 0 ⟨c.bytes, []⟩ ⟨c.bytes, []⟩ := Filled.zero hp _
  have hends := getdentsLoop_ends hl hcount (by omega) hzero (fun h => absurd h (by omega))
    (fun _ => rfl) (show c.count ≤ 0 + c.count by omega)
  have hrun : ∀ x : UserM (ℤ × Option ℕ), (do
      let r ← x
      pure (r.1, r.2.getD p)).run ⟨c.bytes, []⟩ =
      (((x.run ⟨c.bytes, []⟩).1.1, (x.run ⟨c.bytes, []⟩).1.2.getD p), (x.run ⟨c.bytes, []⟩).2) :=
    fun _ => rfl
  rw [hrun]
  generalize (getdentsLoop readdir c.dirp c.count c.count 0 (p + 0)).run ⟨c.bytes, []⟩ = r at hends
  rcases hends with ⟨⟨e, he, hlt⟩, rfl⟩ | ⟨k, w, hr, hfilled, hend⟩
  · exact .small (by omega) he hlt
  · obtain ⟨⟨res, pos⟩, m⟩ := r
    obtain ⟨hres, hpos⟩ := Prod.mk.inj hr
    dsimp only at hfilled ⊢
    rw [hres, hpos, Option.getD_some]
    exact .filled (by omega) hfilled hend

/-- What a call delivers are the records of the entries that it moves over. -/
lemma DirCall.records_eq (hl : Lists readdir es) (hp : p ≤ es.length) {c : DirCall}
    (hcount : c.count < 2 ^ 64) :
    ∃ k, p + k ≤ es.length ∧ (c.reply readdir p).1.2 = p + k ∧
      c.records readdir p = some (window es p k) := by
  have hl32 := hl.length_lt
  have hout := c.outcome hl hp hcount
  unfold DirCall.records
  generalize c.reply readdir p = r at hout
  cases hout with
  | refused h => exact ⟨0, hp, rfl, rfl⟩
  | small hpos he hlt => exact ⟨0, hp, rfl, rfl⟩
  | @filled k w m hpos h hend =>
    have hsize := h.size
    have hent := h.entries
    have hw : i64 w = w := i64_of_lt (by omega)
    refine ⟨k, h.entries, rfl, ?_⟩
    dsimp only
    rw [hw, if_neg (by omega), Int.toNat_natCast]
    exact h.records.decode (by omega)

/-- **A sequence of calls** delivers the records of the entries that it moves over. -/
lemma recordsOf_eq (hl : Lists readdir es) (hp : p ≤ es.length) {calls : List DirCall}
    (hcalls : ∀ c ∈ calls, c.count < 2 ^ 64) :
    ∃ k, p + k ≤ es.length ∧ posAfter readdir p calls = p + k ∧
      recordsOf readdir p calls = some (window es p k) := by
  induction calls generalizing p with
  | nil => exact ⟨0, hp, rfl, rfl⟩
  | cons c calls ih =>
    obtain ⟨k, hk, hpos, hrec⟩ := DirCall.records_eq hl hp (hcalls c List.mem_cons_self)
    obtain ⟨l, hlen, hpos', hrest⟩ := ih hk fun d hd => hcalls d (List.mem_cons_of_mem c hd)
    refine ⟨k + l, by omega, ?_, ?_⟩
    · unfold posAfter at hpos' ⊢
      rw [List.foldl_cons, hpos, hpos', Nat.add_assoc]
    · rw [recordsOf, hrec, hpos, hrest, ← window_append]
      rfl

/-- **`getdents64` neither loses nor repeats entries**: in every sequence of calls on a descriptor
at offset 0, a call writes only inside its buffer; one whose buffer has no room for the next record
returns -22, or -14 if it has no room at all, and leaves the offset as it is; and when a call
returns 0, the records of the calls before are those of all entries, in order. -/
theorem getdents_complete {readdir : ℕ → Option DirItem} {es : List DirItem}
    (hl : Lists readdir es) (calls : List DirCall) (c : DirCall)
    (hcalls : ∀ d ∈ calls, d.count < 2 ^ 64) (hcount : c.count < 2 ^ 64) :
    (∀ a ∈ (c.reply readdir (posAfter readdir 0 calls)).2.used, ∃ j < c.count, a = u64 (c.dirp + j)) ∧
      (∀ e, es[posAfter readdir 0 calls]? = some e → c.count < reclenOf e → c.dirp ≠ 0 →
        c.dirp < kernelHalf →
        (c.reply readdir (posAfter readdir 0 calls)).1 =
          (if c.count = 0 then -14 else -22, posAfter readdir 0 calls)) ∧
      ((c.reply readdir (posAfter readdir 0 calls)).1.1 = 0 →
        recordsOf readdir 0 calls = some (listing es)) := by
  obtain ⟨k, hk, hpos, hrec⟩ := recordsOf_eq hl (Nat.zero_le _) hcalls
  rw [Nat.zero_add] at hk hpos
  have hl32 := hl.length_lt
  rw [hpos, hrec]
  have hout := c.outcome hl hk hcount
  generalize c.reply readdir k = r at hout
  cases hout with
  | refused h =>
    refine ⟨fun a ha => absurd ha List.not_mem_nil, fun e _ _ h0 hker => ?_, fun h0 => ?_⟩
    · rw [if_pos (by omega)]
    · exact absurd (show (-14 : ℤ) = 0 from h0) (by decide)
  | small hpos' he hlt =>
    refine ⟨fun a ha => absurd ha List.not_mem_nil, fun e _ _ _ _ => ?_, fun h0 => ?_⟩
    · rw [if_neg (by omega)]
    · exact absurd (show (-22 : ℤ) = 0 from h0) (by decide)
  | @filled k' w m hpos' h hend =>
    have hsize := h.size
    have hent := h.entries
    have hw : i64 w = w := i64_of_lt (by omega)
    refine ⟨fun a ha => ?_, fun e he hlt _ _ => ?_, fun h0 => ?_⟩
    · exact (h.used a ha).resolve_left List.not_mem_nil
    · -- a record that fits has been written
      rcases hend with ⟨⟨e', he', hle⟩, -⟩ | ⟨hlen, -⟩
      · obtain rfl := Option.some.inj (he.symm.trans he')
        omega
      · obtain ⟨hlt', -⟩ := List.getElem?_eq_some_iff.mp he
        omega
    · have hw0 : w = 0 := by
        dsimp only at h0
        rw [hw] at h0
        omega
      have hk0 := h.nonempty hw0
      have hlen : es.length = k := by
        rcases hend with ⟨-, hk'⟩ | ⟨hlen, -⟩
        · omega
        · exact hlen
      have hall : window es 0 k = listing es := by
        unfold window listing
        rw [List.drop_zero, ← hlen, ← List.length_mapIdx (f := direntOf), List.take_length]
      rw [hall]

/-- A directory with the entries `a`, a file, and `b`, a directory. -/
def twoEntries : List DirItem := [(11, false, [97]), (12, true, [98])]

lemma twoEntries_lists : Lists (fun i => twoEntries[i]?) twoEntries := by
  refine ⟨by decide, fun _ _ => rfl, fun e he => ?_⟩
  rcases List.mem_cons.mp he with rfl | he
  · exact ⟨by decide, by decide, by decide⟩
  · rw [List.mem_singleton.mp he]
    exact ⟨by decide, by decide, by decide⟩

/-- One entry for each of two calls, and the end. -/
theorem getdents_complete_twoEntries :
    (DirCall.reply (fun i => twoEntries[i]?) (posAfter (fun i => twoEntries[i]?) 0
        [⟨0x1000, 40, fun _ => 0⟩, ⟨0x1000, 32, fun _ => 7⟩]) ⟨0x1000, 8, fun _ => 0⟩).1.1 = 0 ∧
      recordsOf (fun i => twoEntries[i]?) 0 [⟨0x1000, 40, fun _ => 0⟩, ⟨0x1000, 32, fun _ => 7⟩] =
        some [⟨11, 1, 32, 8, [97]⟩, ⟨12, 2, 32, 4, [98]⟩] := by
  have hcomplete := getdents_complete twoEntries_lists
    [⟨0x1000, 40, fun _ => 0⟩, ⟨0x1000, 32, fun _ => 7⟩] ⟨0x1000, 8, fun _ => 0⟩
    (by simp) (by norm_num)
  have hend : (DirCall.reply (fun i => twoEntries[i]?) (posAfter (fun i => twoEntries[i]?) 0
      [⟨0x1000, 40, fun _ => 0⟩, ⟨0x1000, 32, fun _ => 7⟩]) ⟨0x1000, 8, fun _ => 0⟩).1.1 = 0 := by
    decide +kernel
  exact ⟨hend, hcomplete.2.2 hend⟩

/-- **A buffer of size 0** has no room for the next record, and the call returns -14. -/
theorem getdents_empty_buffer :
    twoEntries[0]? = some (11, false, [97]) ∧ 0 < reclenOf (11, false, [97]) ∧
      (DirCall.reply (fun i => twoEntries[i]?) 0 ⟨0x1000, 0, fun _ => 0⟩).1.1 = -14 := by
  refine ⟨rfl, by decide, by decide +kernel⟩

end Sequence

end Bangos.Syscall
