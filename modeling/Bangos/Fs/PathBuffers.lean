import Bangos.Fs.MountTable

/-!
# Long paths (`vfs_lookup`, `vfs_open`)

`vfs.c` copies parts of a path into two buffers of 128 bytes.  `vfs_lookup` copies one component
at a time and stops when the buffer is full; the rest of the component is then taken for a
component of its own.  `vfs_open` copies the path of the parent directory, however long it is.
-/

namespace Bangos.Fs

/-! ## The components of a path -/

section Components

variable {ν : Type} {m : Type → Type} [Monad m] {s t c : List UInt8}

/-- The parts of a path between its slashes, without the empty ones. -/
def pathComponents (s : List UInt8) : List (List UInt8) := (s.splitOn slash).filter (· ≠ [])

/-- What `vfs_lookup` is for: from the root of the mount that `vfs_find_mount` chooses, find the
components of the relative path one after the other. -/
def lookupByComponents (ops : VfsOps ν m) (mounts : List (Mount ν)) (path : List UInt8) :
    m (Option ν) :=
  match findMount mounts path with
  | none => pure none
  | some (mt, rel) => walkNames ops mt.root (pathComponents rel)

lemma pathComponents_append_slash (s t : List UInt8) :
    pathComponents (s ++ slash :: t) = pathComponents s ++ pathComponents t := by
  unfold pathComponents
  rw [List.splitOn_append_cons_of_beq s t (beq_self_eq_true slash), List.filter_append]

lemma pathComponents_of_no_slash (h : slash ∉ s) (hne : s ≠ []) : pathComponents s = [s] := by
  unfold pathComponents
  rw [List.splitOn_eq_singleton h]
  simp [hne]

lemma pathComponents_slash (t : List UInt8) : pathComponents (slash :: t) = pathComponents t :=
  pathComponents_append_slash [] t

lemma pathComponents_dropWhile (s : List UInt8) :
    pathComponents (s.dropWhile (· = slash)) = pathComponents s := by
  induction s with
  | nil => rfl
  | cons c s ih =>
    by_cases hc : c = slash
    · rw [List.dropWhile_cons_of_pos (by simpa using hc), ih, hc, pathComponents_slash]
    · rw [List.dropWhile_cons_of_neg (by simpa using hc)]

lemma components_slash (t : List UInt8) : components (slash :: t) = components t := by
  rw [← components_dropWhile, List.dropWhile_cons_of_pos (by simp), components_dropWhile]

lemma firstComp_append (hc : slash ∉ c) (ht : t = [] ∨ t.head? = some slash) :
    firstComp (c ++ t) = c.take compRoom := by
  have hall : ∀ x ∈ c, (decide (x ≠ slash)) = true := fun x hx =>
    decide_eq_true fun h => hc (h ▸ hx)
  unfold firstComp
  rw [List.takeWhile_append_of_pos hall]
  rcases ht with rfl | ht
  · rw [List.takeWhile_nil, List.append_nil]
  · obtain ⟨t, rfl⟩ := List.head?_eq_some_iff.mp ht
    rw [List.takeWhile_cons_of_neg (by simp), List.append_nil]

lemma components_append (hc : slash ∉ c) (ht : t = [] ∨ t.head? = some slash) :
    components (c ++ t) = components c ++ components t := by
  induction hn : c.length using Nat.strong_induction_on generalizing c with
  | _ n ih =>
    cases c with
    | nil => rfl
    | cons x c =>
      have hx : x ≠ slash := fun h => hc (h ▸ List.mem_cons_self)
      have hdrop : ∀ u : List UInt8, (x :: u).dropWhile (· = slash) = x :: u := fun u =>
        List.dropWhile_cons_of_neg (by simpa using hx)
      have hfirst : firstComp (x :: (c ++ t)) = firstComp (x :: c) := by
        rw [← List.cons_append, firstComp_append hc ht]
        have := firstComp_append hc (Or.inl rfl)
        rw [List.append_nil] at this
        exact this.symm
      have hlen := firstComp_length_le (x :: c)
      have hpos : 0 < (firstComp (x :: c)).length := by
        have := firstComp_length_pos (t := x :: c) (by rw [hdrop]; exact List.cons_ne_nil x c)
        rwa [hdrop] at this
      rw [List.cons_append, components_eq_cons (by rw [hdrop]; exact List.cons_ne_nil _ _),
        components_eq_cons (t := x :: c) (by rw [hdrop]; exact List.cons_ne_nil _ _), hdrop, hdrop,
        hfirst, ← List.cons_append, List.drop_append_of_le_length hlen, List.cons_append]
      refine congrArg _ (ih _ ?_ (fun h => hc (List.mem_of_mem_drop h)) rfl)
      rw [← hn, List.length_drop]
      omega

lemma path_cases (s : List UInt8) : (∃ t, s = slash :: t) ∨ s = [] ∨
    ∃ c t, s = c ++ t ∧ c ≠ [] ∧ slash ∉ c ∧ (t = [] ∨ ∃ u, t = slash :: u) := by
  cases s with
  | nil => exact Or.inr (Or.inl rfl)
  | cons x s =>
    by_cases hx : x = slash
    · exact Or.inl ⟨s, by rw [hx]⟩
    · refine Or.inr (Or.inr ⟨(x :: s).takeWhile (· ≠ slash), (x :: s).dropWhile (· ≠ slash),
        List.takeWhile_append_dropWhile.symm, ?_, fun h => ?_, ?_⟩)
      · rw [List.takeWhile_cons_of_pos (by simpa using hx)]
        exact List.cons_ne_nil _ _
      · simpa using List.mem_takeWhile_imp h
      · cases hd : (x :: s).dropWhile (· ≠ slash) with
        | nil => exact Or.inl rfl
        | cons y u =>
          have hy := List.head_dropWhile_not (p := (· ≠ slash)) (l := x :: s)
            (by rw [hd]; exact List.cons_ne_nil y u)
          simp only [hd, List.head_cons] at hy
          obtain rfl : y = slash := by simpa using hy
          exact Or.inr ⟨u, rfl⟩

/-- **What `vfs_lookup` looks up**: the pieces into which it cuts the components of the path. -/
lemma components_eq_flatMap (s : List UInt8) :
    components s = (pathComponents s).flatMap components := by
  induction hn : s.length using Nat.strong_induction_on generalizing s with
  | _ n ih =>
    rcases path_cases s with ⟨t, rfl⟩ | rfl | ⟨c, t, rfl, hne, hc, ht⟩
    · rw [components_slash, pathComponents_slash]
      exact ih t.length (by rw [← hn, List.length_cons]; omega) t rfl
    · rfl
    · rcases ht with rfl | ⟨u, rfl⟩
      · rw [List.append_nil, pathComponents_of_no_slash hc hne, List.flatMap_singleton]
      · have hrest := ih u.length (by
          rw [← hn, List.length_append, List.length_cons]
          omega) u rfl
        rw [components_append hc (Or.inr rfl), components_slash, pathComponents_append_slash,
          pathComponents_of_no_slash hc hne, List.flatMap_append, List.flatMap_singleton, hrest]

lemma mem_pathComponents (h : c ∈ pathComponents s) : c ≠ [] ∧ slash ∉ c := by
  induction hn : s.length using Nat.strong_induction_on generalizing s with
  | _ n ih =>
    rcases path_cases s with ⟨t, rfl⟩ | rfl | ⟨d, t, rfl, hne, hd, ht⟩
    · rw [pathComponents_slash] at h
      exact ih t.length (by rw [← hn, List.length_cons]; omega) h rfl
    · cases h
    · rcases ht with rfl | ⟨u, rfl⟩
      · rw [List.append_nil, pathComponents_of_no_slash hd hne, List.mem_singleton] at h
        exact h ▸ ⟨hne, hd⟩
      · rw [pathComponents_append_slash, pathComponents_of_no_slash hd hne, List.singleton_append,
          List.mem_cons] at h
        rcases h with rfl | h
        · exact ⟨hne, hd⟩
        · refine ih u.length ?_ h rfl
          rw [← hn, List.length_append, List.length_cons]
          omega

lemma components_of_short (hne : c ≠ []) (hc : slash ∉ c) (hlen : c.length < 128) :
    components c = [c] := by
  have hdrop : c.dropWhile (· = slash) = c := by
    cases c with
    | nil => rfl
    | cons x c =>
      refine List.dropWhile_cons_of_neg ?_
      simpa using fun h : x = slash => hc (h ▸ List.mem_cons_self)
  have hfirst : firstComp c = c := by
    have := firstComp_append hc (Or.inl rfl)
    rw [List.append_nil, List.take_of_length_le (show c.length ≤ compRoom by
      unfold compRoom
      omega)] at this
    exact this
  rw [components_eq_cons (by rwa [hdrop]), hdrop, hfirst, List.drop_length]
  rfl

lemma components_of_all_short (h : ∀ c ∈ pathComponents s, c.length < 128) :
    components s = pathComponents s := by
  have hpieces : ∀ c ∈ pathComponents s, components c = [c] := fun c hc =>
    components_of_short (mem_pathComponents hc).1 (mem_pathComponents hc).2 (h c hc)
  rw [components_eq_flatMap]
  generalize pathComponents s = l at hpieces
  induction l with
  | nil => rfl
  | cons c l ih =>
    rw [List.flatMap_cons, hpieces c List.mem_cons_self,
      ih fun d hd => hpieces d (List.mem_cons_of_mem c hd), List.singleton_append]

lemma length_lt_of_mem_components (h : c ∈ components s) : c.length < 128 := by
  unfold components at h
  generalize s.length + 1 = fuel at h
  induction fuel generalizing s with
  | zero => cases h
  | succ fuel ih =>
    simp only [componentsUpTo] at h
    split_ifs at h with hnil
    · cases h
    · rcases List.mem_cons.mp h with rfl | h
      · exact Nat.lt_succ_of_le (List.length_take_le _ _)
      · exact ih h

end Components

/-! ## Looking up a path -/

section Lookup

variable {ν : Type} {path : List UInt8}

/-- A file system in which every directory is its own subdirectory, under every name that fits a
buffer of 128 bytes. -/
def shortNames (ν : Type) : VfsOps ν Id where
  finddir node name := if name.length < 128 then some node else none
  create _ _ _ := none

lemma walkNames_shortNames (node : ν) (names : List (List UInt8)) :
    walkNames (shortNames ν) node names =
      if ∀ c ∈ names, c.length < 128 then some node else none := by
  induction names with
  | nil => rfl
  | cons c names ih =>
    have hstep : walkNames (shortNames ν) node (c :: names) =
        if c.length < 128 then walkNames (shortNames ν) node names else (none : Option ν) := by
      rw [walkNames]
      by_cases hc : c.length < 128
      · simp only [shortNames, if_pos hc]
        rfl
      · simp only [shortNames, if_neg hc]
        rfl
    rw [hstep, ih]
    by_cases hc : c.length < 128
    · simp [hc]
    · rw [if_neg hc, if_neg fun h => hc (h c List.mem_cons_self)]

lemma vfsLookup_eq_pieces {m : Type → Type} [Monad m] [LawfulMonad m] (ops : VfsOps ν m)
    (mounts : List (Mount ν)) (hpath : (0 : UInt8) ∉ path) {fuel : ℕ} (hfuel : path.length ≤ fuel) :
    vfsLookup fuel mounts ops (strRead path) =
      match findMount mounts path with
      | none => pure none
      | some (mt, rel) => walkNames ops mt.root (components rel) := by
  rw [vfsLookup_strRead ops mounts hpath hfuel, findMount_eq]
  cases mountOf mounts path with
  | none => rfl
  | some mt =>
    dsimp only [Option.map_some]
    rw [components_dropWhile]

/-- **`vfs_lookup` follows the components of a path**, in every file system, exactly if each of them
is shorter than 128 bytes. -/
theorem lookup_by_components_iff (mounts : List (Mount ν)) (path : List UInt8)
    (hpath : (0 : UInt8) ∉ path) :
    (∀ (m : Type → Type) [Monad m] [LawfulMonad m] (ops : VfsOps ν m) (fuel : ℕ),
        path.length ≤ fuel →
        vfsLookup fuel mounts ops (strRead path) = lookupByComponents ops mounts path) ↔
      ∀ mt rel, findMount mounts path = some (mt, rel) →
        ∀ c ∈ pathComponents rel, c.length < 128 := by
  constructor
  · intro hall mt rel hfind
    have hshort := hall Id (shortNames ν) path.length le_rfl
    unfold lookupByComponents at hshort
    rw [vfsLookup_eq_pieces _ _ hpath le_rfl, hfind] at hshort
    dsimp only at hshort
    rw [walkNames_shortNames, walkNames_shortNames,
      if_pos fun c hc => length_lt_of_mem_components hc] at hshort
    by_contra hlong
    rw [if_neg hlong] at hshort
    cases hshort
  · intro hshort m _ _ ops fuel hfuel
    unfold lookupByComponents
    rw [vfsLookup_eq_pieces ops mounts hpath hfuel]
    cases hfind : findMount mounts path with
    | none => rfl
    | some r =>
      obtain ⟨mt, rel⟩ := r
      dsimp only
      rw [components_of_all_short (hshort mt rel hfind)]

/-- A path with a run of slashes. -/
theorem lookup_by_components_run :
    (0 : UInt8) ∉ [slash, 97, slash, slash, 98] ∧
      vfsLookup (m := Id) 5 [⟨[slash], 0⟩] (shortNames ℕ) (strRead [slash, 97, slash, slash, 98]) =
        lookupByComponents (shortNames ℕ) [⟨[slash], 0⟩] [slash, 97, slash, slash, 98] := by
  have hnul : (0 : UInt8) ∉ [slash, 97, slash, slash, 98] := by decide
  have hiff := lookup_by_components_iff [(⟨[slash], 0⟩ : Mount ℕ)] _ hnul
  refine ⟨hnul, hiff.mpr (fun mt rel hfind c hc => ?_) Id (shortNames ℕ) 5 (by decide)⟩
  rw [findMount_eq, mountOf_root] at hfind
  obtain ⟨-, rfl⟩ := Prod.mk.inj (Option.some.inj hfind)
  have hparts : pathComponents [97, slash, slash, 98] = [[97], [98]] := by
    rw [show [97, slash, slash, 98] = [97] ++ slash :: [slash, 98] from rfl,
      pathComponents_append_slash, pathComponents_slash,
      pathComponents_of_no_slash (by decide) (by decide),
      pathComponents_of_no_slash (by decide) (by decide)]
    rfl
  have hc : c ∈ pathComponents [97, slash, slash, 98] := hc
  rw [hparts] at hc
  rcases List.mem_cons.mp hc with rfl | hc
  · decide
  · rw [List.mem_singleton.mp hc]
    decide

/-- A directory whose name is 127 times `a`, with a file `a` in it. -/
def nestedNames : VfsOps ℕ Id where
  finddir node name :=
    if node = 0 ∧ name = List.replicate 127 97 then some 1
    else if node = 1 ∧ name = [97] then some 2
    else none
  create _ _ _ := none

/-- **A name that does not exist is found**: 128 times `a` is looked up as two components. -/
theorem lookup_cuts_component :
    vfsLookup (m := Id) 129 [⟨[slash], 0⟩] nestedNames
        (strRead (slash :: List.replicate 128 97)) = some 2 ∧
      lookupByComponents nestedNames [⟨[slash], 0⟩] (slash :: List.replicate 128 97) = none := by
  refine ⟨by change @Eq (Option ℕ) _ _; decide +kernel, ?_⟩
  have hone : pathComponents (List.replicate 128 97) = [List.replicate 128 97] :=
    pathComponents_of_no_slash (by decide) (by decide)
  unfold lookupByComponents
  rw [findMount_eq, mountOf_root]
  dsimp only [Option.map_some]
  rw [show (slash :: List.replicate 128 (97 : UInt8)).drop [slash].length =
    List.replicate 128 97 from rfl, pathComponents_dropWhile, hone]
  change @Eq (Option ℕ) _ _
  decide +kernel

end Lookup

/-! ## Creating a file -/

section Open

variable {ν : Type} {path name pre : List UInt8}

/-- `kstrrchr(s, c)` from character `i` on, with the place of the last `c` before it. -/
def kstrrchr (c : UInt8) : List UInt8 → ℕ → Option ℕ → Option ℕ
  | [], _, last => last
  | x :: s, i, last => kstrrchr c s (i + 1) (if x = c then some i else last)

/-- The bytes that `kstrncpy(dst, src, n)` stores, from `dst` on. -/
def kstrncpy : ℕ → List UInt8 → List UInt8
  | 0, _ => []
  | 1, _ => [0]
  | _ + 2, [] => [0]
  | n + 2, c :: s => c :: kstrncpy (n + 1) s

/-- The bytes that `vfs_open` stores in `dirpath`, and `filename`. -/
def openSplit (path : List UInt8) : List UInt8 × List UInt8 :=
  match kstrrchr slash path 0 none with
  | some i => (kstrncpy ((if i = 0 then 1 else i) + 1) path, path.drop (i + 1))
  | none => (kstrncpy 128 [slash], path)

/-- What a call of `vfs_open` does besides looking up paths. -/
structure OpenTrace (ν : Type) where
  /-- The bytes stored, from the start of `dirpath` on. -/
  dirpath : List UInt8
  /-- The directory and the name that `create` is called with. -/
  create : Option (ν × List UInt8)

/-- `vfs_open` with its trace. -/
def vfsOpenTraced {m : Type → Type} [Monad m] (fuel : ℕ) (mounts : List (Mount ν))
    (ops : VfsOps ν m) (rd : ℕ → m UInt8) (flags mode : ℕ) : m (Option ν × OpenTrace ν) := do
  match ← vfsLookup fuel mounts ops rd with
  | some node => pure (some node, ⟨[], none⟩)
  | none =>
    if flags.testBit 6 then
      let path ← readStr rd fuel 0
      let stored := (openSplit path).1
      match ← vfsLookup fuel mounts ops (strRead (stored.takeWhile (· ≠ 0))) with
      | none => pure (none, ⟨stored, none⟩)
      | some parent => do
        let r ← ops.create parent (openSplit path).2 mode
        pure (r, ⟨stored, some (parent, (openSplit path).2)⟩)
    else pure (none, ⟨[], none⟩)

/-- `dir` and `name` are the parts of a path before and after its last `/`.  What lies in no other
directory lies in the root directory. -/
def SplitsAtLast (path dir name : List UInt8) : Prop :=
  (slash ∉ path ∧ dir = [slash] ∧ name = path) ∨
    ∃ pre, slash ∉ name ∧ path = pre ++ slash :: name ∧ dir = if pre = [] then [slash] else pre

/-! ### The parts of a path -/

lemma last_slash_cases (path : List UInt8) :
    slash ∉ path ∨ ∃ pre name, path = pre ++ slash :: name ∧ slash ∉ name := by
  induction path with
  | nil => exact Or.inl List.not_mem_nil
  | cons x s ih =>
    rcases ih with hs | ⟨pre, name, rfl, hname⟩
    · by_cases hx : x = slash
      · exact Or.inr ⟨[], s, by rw [hx]; rfl, hs⟩
      · exact Or.inl fun h => (List.mem_cons.mp h).elim (fun h => hx h.symm) hs
    · exact Or.inr ⟨x :: pre, name, rfl, hname⟩

lemma kstrrchr_of_not_mem {c : UInt8} (h : c ∉ path) (i : ℕ) (last : Option ℕ) :
    kstrrchr c path i last = last := by
  induction path generalizing i with
  | nil => rfl
  | cons x s ih =>
    rw [List.mem_cons, not_or] at h
    rw [kstrrchr, if_neg fun hx => h.1 hx.symm, ih h.2]

lemma kstrrchr_append {c : UInt8} (h : c ∉ name) (i : ℕ) (last : Option ℕ) :
    kstrrchr c (pre ++ c :: name) i last = some (i + pre.length) := by
  induction pre generalizing i last with
  | nil => rw [List.nil_append, kstrrchr, if_pos rfl, kstrrchr_of_not_mem h]; rfl
  | cons x pre ih =>
    rw [List.cons_append, kstrrchr, ih, List.length_cons]
    exact congrArg some (by omega)

lemma kstrncpy_succ (n : ℕ) (src : List UInt8) : kstrncpy (n + 1) src = src.take n ++ [0] := by
  induction n generalizing src with
  | zero => rfl
  | succ n ih =>
    cases src with
    | nil => rfl
    | cons c s => rw [kstrncpy, ih, List.take_succ_cons, List.cons_append]

/-- **The parts that `vfs_open` works with.** -/
lemma openSplit_cases (hpath : (0 : UInt8) ∉ path) :
    ∃ dir name, SplitsAtLast path dir name ∧ openSplit path = (dir ++ [0], name) ∧
      (0 : UInt8) ∉ dir ∧ (dir.length < 128 ↔ slash ∉ path.drop 128) := by
  rcases last_slash_cases path with hno | ⟨pre, name, rfl, hname⟩
  · refine ⟨[slash], path, Or.inl ⟨hno, rfl, rfl⟩, ?_, by decide, ?_⟩
    · unfold openSplit
      rw [kstrrchr_of_not_mem hno]
      rfl
    · exact iff_of_true (by decide) fun h => hno (List.mem_of_mem_drop h)
  · have hpre : (0 : UInt8) ∉ pre := fun h => hpath (List.mem_append_left _ h)
    -- a slash behind the first 128 characters is the last one
    have hdrop : slash ∉ (pre ++ slash :: name).drop 128 ↔ pre.length < 128 := by
      rw [List.drop_append, List.mem_append, not_or]
      constructor
      · rintro ⟨-, h⟩
        by_contra hge
        rw [show 128 - pre.length = 0 by omega, List.drop_zero] at h
        exact h List.mem_cons_self
      · intro hlt
        obtain ⟨k, hk⟩ : ∃ k, 128 - pre.length = k + 1 := ⟨127 - pre.length, by omega⟩
        rw [List.drop_eq_nil_of_le hlt.le, hk, List.drop_succ_cons]
        exact ⟨List.not_mem_nil, fun h => hname (List.mem_of_mem_drop h)⟩
    have hsplit : openSplit (pre ++ slash :: name) =
        ((pre ++ slash :: name).take (if pre.length = 0 then 1 else pre.length) ++ [0], name) := by
      have hrest : (pre ++ slash :: name).drop (pre.length + 1) = name := by
        rw [List.append_cons, List.drop_left' (by simp)]
      unfold openSplit
      rw [kstrrchr_append hname, Nat.zero_add]
      dsimp only
      rw [kstrncpy_succ, hrest]
    rw [hsplit, hdrop]
    cases pre with
    | nil => exact ⟨[slash], name, Or.inr ⟨[], hname, rfl, rfl⟩, rfl, by decide, by simp⟩
    | cons x pre =>
      refine ⟨x :: pre, name, Or.inr ⟨x :: pre, hname, rfl, (if_neg (List.cons_ne_nil x pre)).symm⟩,
        ?_, hpre, Iff.rfl⟩
      rw [if_neg (by simp), List.take_left]

lemma takeWhile_stored {dir : List UInt8} (h : (0 : UInt8) ∉ dir) :
    (dir ++ [0]).takeWhile (· ≠ 0) = dir := by
  have hall : ∀ x ∈ dir, decide (x ≠ 0) = true := fun x hx => decide_eq_true fun h0 => h (h0 ▸ hx)
  rw [List.takeWhile_append_of_pos hall, List.takeWhile_cons_of_neg (by decide), List.append_nil]

lemma SplitsAtLast.splitLast_eq {dir : List UInt8} (h : SplitsAtLast path dir name) :
    splitLast path = (dir, name) := by
  have hall : ∀ u : List UInt8, slash ∉ u → ∀ x ∈ u.reverse, decide (x ≠ slash) = true :=
    fun u hu x hx => decide_eq_true fun hs => hu (hs ▸ List.mem_reverse.mp hx)
  rcases h with ⟨hno, rfl, rfl⟩ | ⟨pre, hname, rfl, rfl⟩
  · unfold splitLast
    rw [List.takeWhile_eq_self_iff.mpr (hall _ hno), List.reverse_reverse]
    exact if_pos rfl
  · have hlast : ((pre ++ slash :: name).reverse.takeWhile (· ≠ slash)).reverse = name := by
      rw [show (pre ++ slash :: name).reverse = name.reverse ++ slash :: pre.reverse by simp,
        List.takeWhile_append_of_pos (hall _ hname), List.takeWhile_cons_of_neg (by simp),
        List.append_nil, List.reverse_reverse]
    have hlen : (pre ++ slash :: name).length = pre.length + (name.length + 1) := by simp
    unfold splitLast
    dsimp only
    rw [hlast, hlen, if_neg (by omega),
      show pre.length + (name.length + 1) - name.length - 1 = pre.length by omega]
    cases pre with
    | nil => rfl
    | cons x pre => rw [if_neg (by simp), if_neg (List.cons_ne_nil x pre), List.take_left]

/-- The trace is kept beside `vfs_open`. -/
theorem vfsOpenTraced_fst {m : Type → Type} [Monad m] [LawfulMonad m] (mounts : List (Mount ν))
    (ops : VfsOps ν m) (hpath : (0 : UInt8) ∉ path) {fuel : ℕ} (hfuel : path.length ≤ fuel)
    (flags mode : ℕ) :
    Prod.fst <$> vfsOpenTraced fuel mounts ops (strRead path) flags mode =
      vfsOpen fuel mounts ops (strRead path) flags mode := by
  obtain ⟨dir, name, hsplit, hopen, hdir, -⟩ := openSplit_cases hpath
  unfold vfsOpenTraced vfsOpen
  rw [map_bind]
  refine bind_congr fun r => ?_
  cases r with
  | some node => exact map_pure _ _
  | none =>
    by_cases hflag : flags.testBit 6 = true
    · simp only [hflag, if_true]
      rw [readStr_strRead hpath (by omega), List.drop_zero, pure_bind, pure_bind, hopen,
        hsplit.splitLast_eq, takeWhile_stored hdir, map_bind]
      refine bind_congr fun r => ?_
      cases r with
      | none => exact map_pure _ _
      | some parent => simp
    · simp only [hflag]
      exact map_pure _ _

/-! ### The buffer -/

/-- What a call of `vfs_open` should do: it stores only inside the 128 bytes of `dirpath`, and
creates the file under the name behind the last `/` of the path in the directory that `vfs_lookup`
finds for the part before it. -/
structure OpensInside (lookup : List UInt8 → Option ν) (path : List UInt8) (t : OpenTrace ν) :
    Prop where
  stores : t.dirpath.length ≤ 128
  create : ∀ parent name, t.create = some (parent, name) →
    ∃ dir, SplitsAtLast path dir name ∧ lookup dir = some parent

lemma vfsOpenTraced_run {σ : Type} {dir : List UInt8} {fuel flags : ℕ} (mounts : List (Mount ν))
    (ops : VfsOps ν (StateM σ)) (mode : ℕ) (s : σ) (hpath : (0 : UInt8) ∉ path)
    (hflags : flags.testBit 6 = true) (hfuel : path.length ≤ fuel) (hdir : (0 : UInt8) ∉ dir)
    (hopen : openSplit path = (dir ++ [0], name)) :
    ((vfsOpenTraced fuel mounts ops (strRead path) flags mode).run s).1.2 =
      match (vfsLookup fuel mounts ops (strRead path)).run s with
      | (some _, _) => ⟨[], none⟩
      | (none, s') => ⟨dir ++ [0],
        ((vfsLookup fuel mounts ops (strRead dir)).run s').1.map fun parent => (parent, name)⟩ := by
  have hbind : ∀ {α β : Type} (x : StateM σ α) (f : α → StateM σ β) (s : σ),
      (x >>= f).run s = (f (x.run s).1).run (x.run s).2 := fun _ _ _ => rfl
  unfold vfsOpenTraced
  rw [hbind]
  cases (vfsLookup fuel mounts ops (strRead path)).run s with
  | mk r s' =>
    cases r with
    | some node => rfl
    | none =>
      simp only [hflags, if_true]
      rw [readStr_strRead hpath (by omega), List.drop_zero, pure_bind, hopen, takeWhile_stored hdir,
        hbind]
      cases (vfsLookup fuel mounts ops (strRead dir)).run s' with
      | mk r s'' => cases r <;> rfl

/-- **`vfs_open` stays inside its buffer** and creates the file in the right place exactly if the
path exists or has no `/` behind its first 128 characters. -/
theorem opens_inside_iff {σ : Type} (mounts : List (Mount ν)) (ops : VfsOps ν (StateM σ))
    (path : List UInt8) (flags mode fuel : ℕ) (s : σ) (hpath : (0 : UInt8) ∉ path)
    (hflags : flags.testBit 6 = true) (hfuel : path.length ≤ fuel) :
    OpensInside (fun dir => ((vfsLookup fuel mounts ops (strRead dir)).run
        ((vfsLookup fuel mounts ops (strRead path)).run s).2).1) path
        ((vfsOpenTraced fuel mounts ops (strRead path) flags mode).run s).1.2 ↔
      ((vfsLookup fuel mounts ops (strRead path)).run s).1.isSome = true ∨
        slash ∉ path.drop 128 := by
  obtain ⟨dir, name, hsplit, hopen, hdir, hlen⟩ := openSplit_cases hpath
  rw [vfsOpenTraced_run mounts ops mode s hpath hflags hfuel hdir hopen]
  cases (vfsLookup fuel mounts ops (strRead path)).run s with
  | mk r s' =>
    cases r with
    | some node =>
      refine iff_of_true ⟨Nat.zero_le _, fun parent name h => ?_⟩ (Or.inl rfl)
      cases h
    | none =>
      dsimp only
      rw [← hlen]
      constructor
      · intro h
        have hstores := h.stores
        rw [List.length_append, List.length_singleton] at hstores
        exact Or.inr (by omega)
      · intro h
        have hlt : dir.length < 128 := h.resolve_left Bool.false_ne_true
        refine ⟨?_, fun parent name' hcreate => ?_⟩
        · rw [List.length_append, List.length_singleton]
          omega
        · obtain ⟨parent', hfound, heq⟩ := Option.map_eq_some_iff.mp hcreate
          obtain ⟨rfl, rfl⟩ := Prod.mk.inj heq
          exact ⟨dir, hsplit, hfound⟩

/-- A file system with an empty root directory, in which files can be created. -/
def emptyRoot : VfsOps ℕ (StateM Unit) where
  finddir _ _ := pure none
  create _ _ _ := pure (some 1)

/-- A file in the root directory. -/
theorem opens_inside_root :
    OpensInside (fun dir => ((vfsLookup 2 [⟨[slash], 0⟩] emptyRoot (strRead dir)).run ()).1)
      [slash, 97]
      ((vfsOpenTraced 2 [⟨[slash], 0⟩] emptyRoot (strRead [slash, 97]) 0x40 0).run ()).1.2 := by
  have hiff := opens_inside_iff [⟨[slash], 0⟩] emptyRoot [slash, 97] 0x40 0 2 () (by decide)
    (by decide) (by decide)
  exact hiff.mpr (Or.inr (by decide))

/-- **`vfs_open` writes behind its buffer**: the parent directory of the path has a name of 127
characters, and with the `/` before it and the NUL behind it that is one byte too many. -/
theorem open_overflows :
    ((vfsOpenTraced 130 [⟨[slash], 0⟩] emptyRoot
        (strRead (slash :: List.replicate 127 97 ++ [slash, 98])) 0x40 0).run ()).1.2.dirpath.length =
        129 ∧
      ¬ OpensInside (fun dir => ((vfsLookup 130 [⟨[slash], 0⟩] emptyRoot (strRead dir)).run ()).1)
        (slash :: List.replicate 127 97 ++ [slash, 98])
        ((vfsOpenTraced 130 [⟨[slash], 0⟩] emptyRoot
          (strRead (slash :: List.replicate 127 97 ++ [slash, 98])) 0x40 0).run ()).1.2 := by
  have hstored : ((vfsOpenTraced 130 [⟨[slash], 0⟩] emptyRoot
      (strRead (slash :: List.replicate 127 97 ++ [slash, 98])) 0x40 0).run ()).1.2.dirpath.length =
      129 := by
    decide +kernel
  refine ⟨hstored, fun h => ?_⟩
  have hstores := h.stores
  rw [hstored] at hstores
  omega

end Open

end Bangos.Fs
