import Mathlib.Data.List.AList

/-!
# Tables with a queue of their keys

A table that remembers the order in which its keys arrived keeps them a second
time in a queue. `Indexed` says the two agree, and each operation on both keeps it.
-/

namespace MacTypeControl.Tables

variable {κ : Type} {ν : Type} [DecidableEq κ]

abbrev Table (κ ν : Type) := AList fun _ : κ => ν

namespace Table

def size (t : Table κ ν) : ℕ := t.entries.length

/-- Keeps the entries whose value satisfies `p`. -/
def retain (p : ν → Bool) (t : Table κ ν) : Table κ ν where
  entries := t.entries.filter fun e => p e.2
  nodupKeys := t.nodupKeys.sublist List.filter_sublist

theorem lookup_retain (p : ν → Bool) (t : Table κ ν) (k : κ) :
    (t.retain p).lookup k = (t.lookup k).filter p := by
  have hmem : ∀ v, v ∈ (t.retain p).lookup k ↔ v ∈ (t.lookup k).filter p := by
    intro v
    rw [AList.mem_lookup_iff]
    simp only [retain, List.mem_filter, Option.mem_def, Option.filter_eq_some_iff]
    rw [← Option.mem_def, AList.mem_lookup_iff]
  exact Option.ext hmem

theorem mem_retain {p : ν → Bool} {t : Table κ ν} {k : κ} :
    k ∈ t.retain p ↔ ∃ v, t.lookup k = some v ∧ p v := by
  rw [← AList.lookup_isSome, lookup_retain, Option.isSome_iff_exists]
  simp only [Option.filter_eq_some_iff]

theorem mem_of_mem_retain {p : ν → Bool} {t : Table κ ν} {k : κ} (h : k ∈ t.retain p) :
    k ∈ t := by
  obtain ⟨v, hv, -⟩ := mem_retain.1 h
  exact AList.lookup_isSome.1 (by rw [hv]; rfl)

theorem mem_of_lookup {t : Table κ ν} {k : κ} {v : ν} (h : t.lookup k = some v) : k ∈ t :=
  AList.lookup_isSome.1 (by rw [h]; rfl)

omit [DecidableEq κ] in
theorem size_eq_keys (t : Table κ ν) : t.size = t.keys.length := by
  simp [size, AList.keys, List.keys]

end Table

/-- The queue holds exactly the keys of the table, each once. -/
structure Indexed (order : List κ) (t : Table κ ν) : Prop where
  nodup : order.Nodup
  mem_iff : ∀ k, k ∈ order ↔ k ∈ t

namespace Indexed

variable {order : List κ} {t : Table κ ν} {k : κ}

omit [DecidableEq κ] in
theorem empty : Indexed ([] : List κ) (∅ : Table κ ν) := ⟨List.nodup_nil, by simp⟩

omit [DecidableEq κ] in
theorem length_eq (h : Indexed order t) : order.length = t.size := by
  rw [Table.size_eq_keys]
  exact ((List.perm_ext_iff_of_nodup h.nodup t.keys_nodup).2 h.mem_iff).length_eq

theorem pushBack (h : Indexed order t) (hk : k ∉ t) (v : ν) :
    Indexed (order ++ [k]) (t.insert k v) := by
  refine ⟨List.nodup_append.2 ⟨h.nodup, List.nodup_singleton k, ?_⟩, fun k' => ?_⟩
  · intro a ha b hb
    rw [List.mem_singleton] at hb
    rintro rfl
    exact hk ((h.mem_iff _).1 (hb ▸ ha))
  · rw [List.mem_append, List.mem_singleton, h.mem_iff, AList.mem_insert, or_comm]

theorem popFront (h : Indexed (k :: order) t) : Indexed order (t.erase k) := by
  obtain ⟨hk, hn⟩ := List.nodup_cons.1 h.nodup
  refine ⟨hn, fun k' => ?_⟩
  rw [AList.mem_erase, ← h.mem_iff, List.mem_cons]
  constructor
  · intro hk'
    exact ⟨fun e => hk (e ▸ hk'), Or.inr hk'⟩
  · rintro ⟨hne, rfl | hk'⟩
    · exact absurd rfl hne
    · exact hk'

theorem remove (h : Indexed order t) (k : κ) : Indexed (order.erase k) (t.erase k) := by
  refine ⟨h.nodup.erase k, fun k' => ?_⟩
  rw [h.nodup.mem_erase_iff, h.mem_iff, AList.mem_erase]

/-- The queue is filtered by membership in the table, after the table was. -/
theorem retain (h : Indexed order t) (p : ν → Bool) :
    Indexed (order.filter fun k => k ∈ (t.retain p).keys) (t.retain p) := by
  refine ⟨h.nodup.filter _, fun k' => ?_⟩
  rw [List.mem_filter, h.mem_iff, decide_eq_true_eq, ← AList.mem_keys]
  exact ⟨And.right, fun hk => ⟨Table.mem_of_mem_retain hk, hk⟩⟩

end Indexed

/-- Drops keys from the front of the queue, and their entries, until the table
has fewer than `capacity` entries; also lists the dropped keys, oldest first. -/
def evictOldest (capacity : ℕ) : List κ → Table κ ν → List κ × Table κ ν × List κ
  | [], t => ([], t, [])
  | k :: order, t =>
    if capacity ≤ t.size then
      let (order', t', evicted) := evictOldest capacity order (t.erase k)
      (order', t', k :: evicted)
    else (k :: order, t, [])

theorem Indexed.evictOldest (capacity : ℕ) {order : List κ} {t : Table κ ν}
    (h : Indexed order t) :
    Indexed (Tables.evictOldest capacity order t).1 (Tables.evictOldest capacity order t).2.1 := by
  induction order generalizing t with
  | nil => exact h
  | cons k order ih =>
    unfold Tables.evictOldest
    split
    · exact ih h.popFront
    · exact h

theorem evictOldest_of_room {capacity : ℕ} {order : List κ} {t : Table κ ν}
    (h : t.size < capacity) : evictOldest capacity order t = (order, t, []) := by
  cases order with
  | nil => rfl
  | cons k order => simp [evictOldest, Nat.not_le.mpr h]

/-- A full table drops its oldest key. -/
theorem Indexed.evictOldest_of_full {capacity : ℕ} {k : κ} {order : List κ} {t : Table κ ν}
    (h : Indexed (k :: order) t) (hfull : t.size = capacity) :
    Tables.evictOldest capacity (k :: order) t = (order, t.erase k, [k]) := by
  have hrest := h.popFront.length_eq
  have hsize := h.length_eq
  rw [List.length_cons] at hsize
  unfold Tables.evictOldest
  rw [if_pos (Nat.le_of_eq hfull.symm), evictOldest_of_room (by omega)]

theorem lookup_evictOldest {capacity : ℕ} {order : List κ} {t : Table κ ν} {k : κ} :
    (evictOldest capacity order t).2.1.lookup k =
      if k ∈ (evictOldest capacity order t).2.2 then none else t.lookup k := by
  induction order generalizing t with
  | nil => simp [evictOldest]
  | cons k' order ih =>
    unfold evictOldest
    split
    · simp only [ih, List.mem_cons]
      by_cases hk : k = k'
      · subst hk
        simp [AList.lookup_erase]
      · simp [hk, AList.lookup_erase_ne hk]
    · simp

/-- How many keys are dropped: as many as leave room for one more. -/
theorem Indexed.evictOldest_order (capacity : ℕ) {order : List κ} {t : Table κ ν}
    (h : Indexed order t) :
    order = (Tables.evictOldest capacity order t).2.2 ++ (Tables.evictOldest capacity order t).1 ∧
      (0 < capacity → (Tables.evictOldest capacity order t).2.2.length =
        order.length + 1 - capacity) := by
  induction order generalizing t with
  | nil =>
    refine ⟨rfl, fun hc => ?_⟩
    simp only [Tables.evictOldest, List.length_nil]
    omega
  | cons k order ih =>
    have hlen := h.length_eq
    rw [List.length_cons] at hlen
    unfold Tables.evictOldest
    split
    · next hfull =>
      obtain ⟨horder, hcount⟩ := ih h.popFront
      refine ⟨?_, fun hc => ?_⟩
      · simp only [List.cons_append]
        rw [← horder]
      · have hone : order.length + 1 - capacity + 1 = order.length + 1 + 1 - capacity := by omega
        rw [List.length_cons, List.length_cons, ← hone]
        exact congrArg (· + 1) (hcount hc)
    · next hroom =>
      refine ⟨rfl, fun _ => ?_⟩
      simp only [List.length_nil, List.length_cons]
      omega

/-- New keys came in at the end of the queue. For those that had no room, as many of the
oldest keys went; every other entry is as it was. -/
def Advanced (capacity : ℕ) (order : List κ) (t : Table κ ν) (order' : List κ)
    (t' : Table κ ν) : Prop :=
  ∃ dropped kept added, order = dropped ++ kept ∧ order' = kept ++ added ∧
    dropped.length = order.length + added.length - capacity ∧
    ∀ k ∈ kept, t'.lookup k = t.lookup k

namespace Advanced

variable {capacity : ℕ} {order : List κ} {t : Table κ ν} {k : κ}

theorem refl (h : order.length ≤ capacity) : Advanced capacity order t order t := by
  have hnone : order.length + 0 - capacity = 0 := by omega
  exact ⟨[], order, [], rfl, (List.append_nil order).symm, hnone.symm, fun _ _ => rfl⟩

theorem pushBack (h : order.length < capacity) (hk : k ∉ order) (v : ν) :
    Advanced capacity order t (order ++ [k]) (t.insert k v) := by
  refine ⟨[], order, [k], rfl, rfl, ?_, fun k' hk' => ?_⟩
  · rw [List.length_singleton, List.length_nil]
    omega
  · have hne : k' ≠ k := fun he => hk (he ▸ hk')
    exact AList.lookup_insert_ne hne

/-- The oldest entry makes room for a new one. -/
theorem popFront_pushBack {oldest : κ} {rest : List κ} (hidx : Indexed (oldest :: rest) t)
    (hfull : (oldest :: rest).length = capacity) (hk : k ∉ rest) (v : ν) :
    Advanced capacity (oldest :: rest) t (rest ++ [k]) ((t.erase oldest).insert k v) := by
  refine ⟨[oldest], rest, [k], rfl, rfl, ?_, fun k' hk' => ?_⟩
  · rw [List.length_singleton, List.length_singleton, hfull]
    omega
  · have hne : k' ≠ k := fun he => hk (he ▸ hk')
    have hold : k' ≠ oldest := fun he => (List.nodup_cons.1 hidx.nodup).1 (he ▸ hk')
    rw [AList.lookup_insert_ne hne, AList.lookup_erase_ne hold]

theorem evictOldest_pushBack (hc : 0 < capacity) (hidx : Indexed order t) (hk : k ∉ t) (v : ν) :
    Advanced capacity order t ((evictOldest capacity order t).1 ++ [k])
      ((evictOldest capacity order t).2.1.insert k v) := by
  obtain ⟨horder, hcount⟩ := hidx.evictOldest_order capacity
  refine ⟨_, _, [k], horder, rfl, hcount hc, fun k' hk' => ?_⟩
  have hold : k' ∈ order := by
    rw [horder]
    exact List.mem_append_right _ hk'
  have hne : k' ≠ k := fun he => hk (he ▸ (hidx.mem_iff k').1 hold)
  have hstays : k' ∉ (evictOldest capacity order t).2.2 := by
    have hnodup := hidx.nodup
    rw [horder] at hnodup
    exact fun hgone => (List.nodup_append.1 hnodup).2.2 k' hgone k' hk' rfl
  rw [AList.lookup_insert_ne hne, lookup_evictOldest, if_neg hstays]

/-- The queue is within its capacity afterwards. -/
theorem length_le {order' : List κ} {t' : Table κ ν}
    (h : Advanced capacity order t order' t') :
    order'.length ≤ capacity := by
  obtain ⟨dropped, kept, added, horder, horder', hcount, -⟩ := h
  have hlen := congrArg List.length horder
  have hlen' := congrArg List.length horder'
  rw [List.length_append] at hlen hlen'
  omega

end Advanced

end MacTypeControl.Tables
