import Bangos.Net.Stack

/-!
# The ARP cache as a map (`kernel/net/arp.c`)

The cache is an array of sixteen entries.  An insertion looks for the address first, then for a free
entry, and at last takes entry 0, so an address never has two entries and the entries are a map from
addresses to hardware addresses: the last writer wins, and a full cache forgets one address at a time.
-/

namespace Bangos.Net

/-- No address has two entries. -/
def Distinct (c : ArpCache) : Prop :=
  ∀ i j, (c i).valid = true → (c j).valid = true → (c i).ip = (c j).ip → i = j

/-- The cache after a sequence of insertions. -/
def arpRun (inserts : List (UInt32 × Mac)) : ArpCache :=
  inserts.foldl (fun c e => arpInsertCache c e.1 e.2) arpEmpty

lemma arpRun_append (inserts : List (UInt32 × Mac)) (ip : UInt32) (mac : Mac) :
    arpRun (inserts ++ [(ip, mac)]) = arpInsertCache (arpRun inserts) ip mac := by
  rw [arpRun, List.foldl_append]
  rfl

/-- What the last insertion of an address wrote. -/
def lastWrite (inserts : List (UInt32 × Mac)) (ip : UInt32) : Option Mac :=
  (inserts.reverse.find? fun e => e.1 == ip).map Prod.snd

lemma lastWrite_append_self (inserts : List (UInt32 × Mac)) (ip : UInt32) (mac : Mac) :
    lastWrite (inserts ++ [(ip, mac)]) ip = some mac := by
  rw [lastWrite, List.reverse_append, List.reverse_singleton, List.singleton_append,
    List.find?_cons, beq_self_eq_true, Option.map_some]

lemma lastWrite_append_of_ne (inserts : List (UInt32 × Mac)) {ip ip' : UInt32} (mac : Mac)
    (h : ip' ≠ ip) : lastWrite (inserts ++ [(ip, mac)]) ip' = lastWrite inserts ip' := by
  rw [lastWrite, List.reverse_append, List.reverse_singleton, List.singleton_append,
    List.find?_cons, beq_false_of_ne h.symm, lastWrite]

/-! ## One insertion -/

section Insert

variable {c : ArpCache} {ip : UInt32} {mac : Mac}

/-- All entries are in use, and for other addresses. -/
def FullOfOthers (c : ArpCache) (ip : UInt32) : Prop :=
  ∀ i, (c i).valid = true ∧ (c i).ip ≠ ip

lemma not_holds_of_arpFind_none (h : arpFind c ip = none) (i : Fin arpCacheSize)
    (hi : (c i).valid = true) : (c i).ip ≠ ip := by
  rw [arpFind, List.find?_eq_none] at h
  have hne := h i (List.mem_finRange i)
  rw [hi, Bool.true_and, beq_iff_eq] at hne
  exact hne

lemma holds_of_arpFind_some {i : Fin arpCacheSize} (h : arpFind c ip = some i) :
    (c i).valid = true ∧ (c i).ip = ip := by
  have hi := List.find?_some h
  rwa [Bool.and_eq_true, beq_iff_eq] at hi

/-- An insertion writes one entry: the one of the address, or else one of no valid address, or else
entry 0 of a full cache. -/
lemma arpInsertCache_cases (c : ArpCache) (ip : UInt32) (mac : Mac) :
    ∃ i, arpInsertCache c ip mac = Function.update c i ⟨ip, mac, true⟩ ∧
      ((c i).valid = true ∧ (c i).ip = ip ∨
        (∀ j, (c j).valid = true → (c j).ip ≠ ip) ∧
          ((c i).valid = false ∨ FullOfOthers c ip)) := by
  rw [arpInsertCache]
  cases hfind : arpFind c ip with
  | some i =>
    obtain ⟨hvalid, hip⟩ := holds_of_arpFind_some hfind
    refine ⟨i, ?_, Or.inl ⟨hvalid, hip⟩⟩
    rw [← hip, ← hvalid]
  | none =>
    have hother := not_holds_of_arpFind_none hfind
    dsimp only
    cases hfree : (List.finRange arpCacheSize).find? fun i => !(c i).valid with
    | some i =>
      have hi := List.find?_some hfree
      rw [Bool.not_eq_true'] at hi
      exact ⟨i, rfl, Or.inr ⟨hother, Or.inl hi⟩⟩
    | none =>
      refine ⟨0, rfl, Or.inr ⟨hother, Or.inr fun j => ?_⟩⟩
      have hj := List.find?_eq_none.mp hfree j (List.mem_finRange j)
      rw [Bool.not_eq_true, Bool.not_eq_false'] at hj
      exact ⟨hj, hother j hj⟩

/-- An insertion keeps the addresses distinct. -/
lemma Distinct.insert (h : Distinct c) (ip : UInt32) (mac : Mac) :
    Distinct (arpInsertCache c ip mac) := by
  obtain ⟨i, heq, hcase⟩ := arpInsertCache_cases c ip mac
  -- every other entry that is valid has another address
  have hother : ∀ j, j ≠ i → (c j).valid = true → (c j).ip ≠ ip := by
    intro j hj hvalid hip
    rcases hcase with ⟨hvi, hipi⟩ | ⟨hnone, -⟩
    · exact hj (h j i hvalid hvi (hip.trans hipi.symm))
    · exact hnone j hvalid hip
  rw [heq]
  intro j k hj hk hjk
  by_cases hji : j = i
  · by_cases hki : k = i
    · rw [hji, hki]
    · rw [Function.update_of_ne hki] at hk hjk
      rw [hji, Function.update_self] at hjk
      exact absurd hjk.symm (hother k hki hk)
  · rw [Function.update_of_ne hji] at hj hjk
    by_cases hki : k = i
    · rw [hki, Function.update_self] at hjk
      exact absurd hjk (hother j hji hj)
    · rw [Function.update_of_ne hki] at hk hjk
      exact h j k hj hk hjk

/-- In a cache of distinct addresses the search finds the entry of the address. -/
lemma Distinct.arpLookup_eq_some (h : Distinct c) :
    arpLookup c ip = some mac ↔ ∃ i, c i = ⟨ip, mac, true⟩ := by
  rw [arpLookup, Option.map_eq_some_iff]
  constructor
  · rintro ⟨i, hi, hmac⟩
    obtain ⟨hvalid, hip⟩ := holds_of_arpFind_some hi
    refine ⟨i, ?_⟩
    rw [← hvalid, ← hip, ← hmac]
  · rintro ⟨i, hi⟩
    cases hfind : arpFind c ip with
    | none => exact absurd (by rw [hi]) (not_holds_of_arpFind_none hfind i (by rw [hi]))
    | some j =>
      obtain ⟨hvalid, hip⟩ := holds_of_arpFind_some hfind
      have hij : j = i := h j i hvalid (by rw [hi]) (by rw [hip, hi])
      refine ⟨j, rfl, ?_⟩
      rw [hij, hi]

lemma Distinct.arpLookup_insert_self (h : Distinct c) :
    arpLookup (arpInsertCache c ip mac) ip = some mac := by
  rw [(h.insert ip mac).arpLookup_eq_some]
  obtain ⟨i, heq, -⟩ := arpInsertCache_cases c ip mac
  exact ⟨i, by rw [heq, Function.update_self]⟩

lemma Distinct.arpLookup_of_insert (h : Distinct c) {ip' : UInt32} {mac' : Mac} (hne : ip' ≠ ip)
    (hfound : arpLookup (arpInsertCache c ip mac) ip' = some mac') :
    arpLookup c ip' = some mac' := by
  rw [(h.insert ip mac).arpLookup_eq_some] at hfound
  obtain ⟨j, hj⟩ := hfound
  obtain ⟨i, heq, -⟩ := arpInsertCache_cases c ip mac
  rw [heq] at hj
  rw [h.arpLookup_eq_some]
  by_cases hji : j = i
  · rw [hji, Function.update_self] at hj
    exact absurd (congrArg ArpEntry.ip hj).symm hne
  · rw [Function.update_of_ne hji] at hj
    exact ⟨j, hj⟩

/-- An insertion loses at most one other address, and only if all entries were for others. -/
lemma Distinct.exists_lost (h : Distinct c) (ip : UInt32) (mac : Mac) :
    ∃ lost, ∀ ip' mac', ip' ≠ ip → arpLookup c ip' = some mac' →
      arpLookup (arpInsertCache c ip mac) ip' = some mac' ∨ ip' = lost ∧ FullOfOthers c ip := by
  obtain ⟨i, heq, hcase⟩ := arpInsertCache_cases c ip mac
  refine ⟨(c i).ip, fun ip' mac' hne hfound => ?_⟩
  rw [h.arpLookup_eq_some] at hfound
  obtain ⟨j, hj⟩ := hfound
  by_cases hji : j = i
  · rw [hji] at hj
    rcases hcase with ⟨-, hip⟩ | ⟨-, hfree | hfull⟩
    · rw [hj] at hip
      exact absurd hip hne
    · rw [hj] at hfree
      cases hfree
    · exact Or.inr ⟨by rw [hj], hfull⟩
  · left
    rw [(h.insert ip mac).arpLookup_eq_some, heq]
    exact ⟨j, by rw [Function.update_of_ne hji, hj]⟩

end Insert

/-! ## Sequences of insertions -/

/-- No address has two entries, whatever was inserted. -/
lemma distinct_arpRun (inserts : List (UInt32 × Mac)) : Distinct (arpRun inserts) := by
  induction inserts using List.reverseRecOn with
  | nil =>
    intro i j hi
    cases hi
  | append_singleton inserts e ih =>
    rw [arpRun_append]
    exact ih.insert e.1 e.2

/-- What the cache says of an address is what was written last. -/
lemma lastWrite_of_arpLookup {inserts : List (UInt32 × Mac)} {ip : UInt32} {mac : Mac}
    (h : arpLookup (arpRun inserts) ip = some mac) : lastWrite inserts ip = some mac := by
  induction inserts using List.reverseRecOn with
  | nil =>
    rw [(distinct_arpRun []).arpLookup_eq_some] at h
    obtain ⟨i, hi⟩ := h
    cases congrArg ArpEntry.valid hi
  | append_singleton inserts e ih =>
    rw [arpRun_append] at h
    by_cases hip : ip = e.1
    · rw [hip, (distinct_arpRun inserts).arpLookup_insert_self] at h
      rw [hip, ← h]
      exact lastWrite_append_self inserts e.1 e.2
    · exact (lastWrite_append_of_ne inserts e.2 hip).trans
        (ih ((distinct_arpRun inserts).arpLookup_of_insert hip h))

/-- **The ARP cache is a map in which the last writer wins.**  After any insertions no address has
two entries, and what the cache says of an address is what was inserted for it last.  One more
insertion is found at once, without a request; all other addresses keep their entries but for at most
one, which is lost only if the sixteen entries were all for other addresses. -/
theorem arpCache_lastWriterWins (inserts : List (UInt32 × Mac)) (ip : UInt32) (mac : Mac) :
    Distinct (arpRun inserts) ∧
      (∀ ip' mac', arpLookup (arpRun inserts) ip' = some mac' → lastWrite inserts ip' = some mac') ∧
      (∀ send (s : Stack), s.arpCache = arpRun (inserts ++ [(ip, mac)]) → ip ≠ broadcastIp →
        Stack.arpResolve send s ip = (some mac, s)) ∧
      ∃ lost, ∀ ip' mac', ip' ≠ ip → arpLookup (arpRun inserts) ip' = some mac' →
        arpLookup (arpRun (inserts ++ [(ip, mac)])) ip' = some mac' ∨
          ip' = lost ∧ FullOfOthers (arpRun inserts) ip := by
  have hd := distinct_arpRun inserts
  refine ⟨hd, fun ip' mac' => lastWrite_of_arpLookup, fun send s hs hip => ?_, ?_⟩
  · have hfound : arpLookup s.arpCache ip = some mac := by
      rw [hs, arpRun_append]
      exact hd.arpLookup_insert_self
    rw [Stack.arpResolve, if_neg hip, hfound]
  · rw [arpRun_append]
    exact hd.exists_lost ip mac

end Bangos.Net
