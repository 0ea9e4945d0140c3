import MacTypeControl.Host.EventLogger

/-!
# The window of the event throttle

A key that was let through is refused for the rest of its window, as long as the table has room for
the keys of a window, and let through again behind it.
-/

namespace MacTypeControl.Host

/-! ## One call -/

/-- The table with the key at its new instant. -/
def EventThrottle.put (entries : List (String × ℕ)) (key : String) (now : ℕ) : EventThrottle :=
  ⟨entries.filter (fun entry => entry.1 ≠ key) ++ [(key, now)]⟩

/-- What a call can do. Of several oldest keys any may be the one that makes room, as the hash
table lists them in no fixed order. -/
inductive Allows (window : ℕ) (throttle : EventThrottle) (key : String) (now : ℕ) :
    Bool → EventThrottle → Prop
  | refused (previous : ℕ) : throttle.entries.lookup key = some previous →
      now - previous < window → Allows window throttle key now false throttle
  | renewed (previous : ℕ) : throttle.entries.lookup key = some previous →
      window ≤ now - previous → Allows window throttle key now true (.put throttle.entries key now)
  | added : throttle.entries.lookup key = none → throttle.entries.length < maxThrottleEntries →
      Allows window throttle key now true (.put throttle.entries key now)
  | evicted (oldest : String × ℕ) : throttle.entries.lookup key = none →
      maxThrottleEntries ≤ throttle.entries.length → oldest ∈ throttle.entries →
      (∀ entry ∈ throttle.entries, oldest.2 ≤ entry.2) →
      Allows window throttle key now true
        (.put (throttle.entries.filter fun entry => entry.1 ≠ oldest.1) key now)

theorem allows_allow (throttle : EventThrottle) (key : String) (now window : ℕ) :
    Allows window throttle key now (throttle.allow key now window).1
      (throttle.allow key now window).2 := by
  unfold EventThrottle.allow
  dsimp only
  cases hlookup : throttle.entries.lookup key with
  | some previous =>
    dsimp only
    split
    · next hwithin => exact .refused previous hlookup hwithin
    · next hpassed => exact .renewed previous hlookup (Nat.le_of_not_lt hpassed)
  | none =>
    dsimp only
    cases holdest : throttle.entries.argmin Prod.snd with
    | none =>
      refine .added hlookup ?_
      rw [List.argmin_eq_none.1 holdest]
      decide
    | some oldest =>
      dsimp only
      split
      · next hfull =>
        exact .evicted oldest hlookup hfull (List.argmin_mem holdest)
          fun entry hentry => List.le_of_mem_argmin hentry holdest
      · next hroom => exact .added hlookup (Nat.lt_of_not_le hroom)

variable {window now : ℕ} {throttle throttle' : EventThrottle} {key : String} {answer : Bool}

theorem mem_put {entries : List (String × ℕ)} {entry : String × ℕ} :
    entry ∈ (EventThrottle.put entries key now).entries ↔
      (entry ∈ entries ∧ entry.1 ≠ key) ∨ entry = (key, now) := by
  simp [EventThrottle.put]

/-- The keys of a table are different. -/
def EventThrottle.Distinct (throttle : EventThrottle) : Prop :=
  (throttle.entries.map Prod.fst).Nodup

theorem EventThrottle.Distinct.eq (h : throttle.Distinct) {entry other : String × ℕ}
    (hentry : entry ∈ throttle.entries) (hother : other ∈ throttle.entries)
    (hkey : entry.1 = other.1) : entry = other :=
  List.inj_on_of_nodup_map h hentry hother hkey

theorem distinct_put {entries : List (String × ℕ)} (h : (entries.map Prod.fst).Nodup) :
    (EventThrottle.put entries key now).Distinct := by
  unfold EventThrottle.Distinct EventThrottle.put
  rw [List.map_append, List.nodup_append]
  refine ⟨h.sublist (List.filter_sublist.map Prod.fst), List.nodup_singleton key, ?_⟩
  intro a ha b hb
  obtain ⟨entry, hentry, rfl⟩ := List.mem_map.1 ha
  have hne := (List.mem_filter.1 hentry).2
  rw [decide_eq_true_eq] at hne
  rw [List.map_singleton, List.mem_singleton] at hb
  exact hb ▸ hne

theorem distinct_of_allows (h : throttle.Distinct)
    (hallows : Allows window throttle key now answer throttle') : throttle'.Distinct := by
  cases hallows with
  | refused => exact h
  | renewed => exact distinct_put h
  | added => exact distinct_put h
  | evicted => exact distinct_put (h.sublist (List.filter_sublist.map Prod.fst))

theorem length_put_le (entries : List (String × ℕ)) :
    (EventThrottle.put entries key now).entries.length ≤ entries.length + 1 := by
  unfold EventThrottle.put
  rw [List.length_append, List.length_singleton]
  exact Nat.succ_le_succ (List.length_filter_le _ entries)

/-- A table is smaller without one of its keys. -/
theorem length_filter_key_lt {entries : List (String × ℕ)} {entry : String × ℕ}
    (hentry : entry ∈ entries) :
    (entries.filter fun e => e.1 ≠ entry.1).length < entries.length :=
  List.length_filter_lt_length_iff_exists.2 ⟨entry, hentry, by simp⟩

theorem length_of_allows (h : throttle.entries.length ≤ maxThrottleEntries)
    (hallows : Allows window throttle key now answer throttle') :
    throttle'.entries.length ≤ maxThrottleEntries := by
  cases hallows with
  | refused => exact h
  | renewed previous hlookup =>
    obtain ⟨front, back, hsplit, -⟩ := List.lookup_eq_some_iff.1 hlookup
    have hmem : (key, previous) ∈ throttle.entries := by simp [hsplit]
    have hless : (throttle.entries.filter fun e => e.1 ≠ key).length < throttle.entries.length :=
      length_filter_key_lt hmem
    unfold EventThrottle.put
    rw [List.length_append, List.length_singleton]
    omega
  | added _ hroom => exact (length_put_le _).trans hroom
  | evicted oldest _ _ holdest =>
    have hless := length_filter_key_lt holdest
    exact (length_put_le _).trans (by omega)

/-! ## Runs of calls -/

structure ThrottleCall where
  key : String
  now : ℕ
  answer : Bool
  deriving DecidableEq

/-- The calls on one throttle, at instants that do not go back. -/
inductive ThrottleRun (window : ℕ) : List ThrottleCall → EventThrottle → Prop
  | new : ThrottleRun window [] ⟨[]⟩
  | call {calls : List ThrottleCall} {throttle throttle' : EventThrottle} (call : ThrottleCall) :
      ThrottleRun window calls throttle → (∀ earlier ∈ calls, earlier.now ≤ call.now) →
      Allows window throttle call.key call.now call.answer throttle' →
      ThrottleRun window (calls ++ [call]) throttle'

/-- The keys that are called for in the window from an instant on. -/
def keysWithin (window start : ℕ) (calls : List ThrottleCall) : List String :=
  ((calls.filter fun call => start ≤ call.now && call.now < start + window).map (·.key)).dedup

/-- No window has more keys than the table has room for. -/
def FewKeys (window : ℕ) (calls : List ThrottleCall) : Prop :=
  ∀ start, (keysWithin window start calls).length ≤ maxThrottleEntries

variable {calls : List ThrottleCall}

theorem mem_keysWithin {start : ℕ} :
    key ∈ keysWithin window start calls ↔
      ∃ call ∈ calls, (start ≤ call.now ∧ call.now < start + window) ∧ call.key = key := by
  simp [keysWithin, and_assoc]

theorem FewKeys.front {later : List ThrottleCall} (h : FewKeys window (calls ++ later)) :
    FewKeys window calls := by
  intro start
  refine le_trans ?_ (h start)
  refine (List.nodup_dedup _).subperm ?_ |>.length_le
  intro key hkey
  obtain ⟨call, hcall, hwithin⟩ := mem_keysWithin.1 hkey
  exact mem_keysWithin.2 ⟨call, List.mem_append_left later hcall, hwithin⟩

/-- Every entry of the table is a call that was let through, and no key has two. -/
structure Recorded (calls : List ThrottleCall) (throttle : EventThrottle) : Prop where
  distinct : throttle.Distinct
  room : throttle.entries.length ≤ maxThrottleEntries
  called : ∀ entry ∈ throttle.entries, ⟨entry.1, entry.2, true⟩ ∈ calls

theorem ThrottleRun.recorded (h : ThrottleRun window calls throttle) :
    Recorded calls throttle := by
  induction h with
  | new => exact ⟨List.nodup_nil, Nat.zero_le _, fun _ hentry => absurd hentry List.not_mem_nil⟩
  | @call calls throttle throttle' call _ _ hallows ih =>
    refine ⟨distinct_of_allows ih.distinct hallows, length_of_allows ih.room hallows, ?_⟩
    have hold : ∀ entry ∈ throttle.entries, ⟨entry.1, entry.2, true⟩ ∈ calls ++ [call] :=
      fun entry hentry => List.mem_append_left _ (ih.called entry hentry)
    obtain ⟨key, now, answer⟩ := call
    intro entry hentry
    cases hallows with
    | refused => exact hold entry hentry
    | renewed =>
      rcases mem_put.1 hentry with ⟨hmem, -⟩ | rfl
      · exact hold entry hmem
      · simp
    | added =>
      rcases mem_put.1 hentry with ⟨hmem, -⟩ | rfl
      · exact hold entry hmem
      · simp
    | evicted =>
      rcases mem_put.1 hentry with ⟨hmem, -⟩ | rfl
      · exact hold entry (List.mem_filter.1 hmem).1
      · simp

/-- A key whose window has not passed is in the table, at its last instant or later. -/
def Remembered (window : ℕ) (calls : List ThrottleCall) (throttle : EventThrottle) : Prop :=
  ∀ call ∈ calls, call.answer = true → (∀ later ∈ calls, later.now - call.now < window) →
    ∃ entry ∈ throttle.entries, entry.1 = call.key ∧ call.now ≤ entry.2

/-- A full table whose oldest key is within its window shows too many keys. -/
theorem not_fewKeys_of_full {oldest : String × ℕ} (hrecorded : Recorded calls throttle)
    (hfull : maxThrottleEntries ≤ throttle.entries.length)
    (hnew : ∀ entry ∈ throttle.entries, entry.1 ≠ key)
    (holdest : ∀ entry ∈ throttle.entries, oldest.2 ≤ entry.2)
    (hlast : ∀ earlier ∈ calls, earlier.now ≤ now) (hstart : oldest.2 ≤ now)
    (hwithin : now - oldest.2 < window) :
    ¬FewKeys window (calls ++ [⟨key, now, answer⟩]) := by
  intro hfew
  have hkeys : (key :: throttle.entries.map Prod.fst).Nodup := by
    refine List.nodup_cons.2 ⟨fun hmem => ?_, hrecorded.distinct⟩
    obtain ⟨entry, hentry, hkey⟩ := List.mem_map.1 hmem
    exact hnew entry hentry hkey
  have hsubset : key :: throttle.entries.map Prod.fst ⊆
      keysWithin window oldest.2 (calls ++ [⟨key, now, answer⟩]) := by
    intro other hother
    rcases List.mem_cons.1 hother with rfl | hold
    · have hsoon : now < oldest.2 + window := by omega
      exact mem_keysWithin.2 ⟨⟨other, now, answer⟩, by simp, ⟨hstart, hsoon⟩, rfl⟩
    · obtain ⟨entry, hentry, rfl⟩ := List.mem_map.1 hold
      have hcall := hrecorded.called entry hentry
      have hbefore : entry.2 ≤ now := hlast _ hcall
      have hsoon : entry.2 < oldest.2 + window := by omega
      exact mem_keysWithin.2
        ⟨_, List.mem_append_left _ hcall, ⟨holdest entry hentry, hsoon⟩, rfl⟩
  have hcount := (hkeys.subperm hsubset).length_le
  have hlimit := hfew oldest.2
  rw [List.length_cons, List.length_map] at hcount
  omega

theorem ThrottleRun.remembered (h : ThrottleRun window calls throttle)
    (hfew : FewKeys window calls) : Remembered window calls throttle := by
  induction h with
  | new => exact fun _ hcall => absurd hcall List.not_mem_nil
  | @call calls throttle throttle' call hrun hlast hallows ih =>
    have hrecorded := hrun.recorded
    obtain ⟨key, now, answer⟩ := call
    intro old hold hanswer hwithin
    have hnow : now - old.now < window := hwithin ⟨key, now, answer⟩ (by simp)
    -- an entry is replaced by the new call of its key, or it stays
    have hput : ∀ entries : List (String × ℕ), (old ∈ calls → old.key ≠ key →
        ∃ entry ∈ entries, entry.1 = old.key ∧ old.now ≤ entry.2) →
        ∃ entry ∈ (EventThrottle.put entries key now).entries,
          entry.1 = old.key ∧ old.now ≤ entry.2 := by
      intro entries hstays
      by_cases hkey : old.key = key
      · refine ⟨(key, now), mem_put.2 (Or.inr rfl), hkey.symm, ?_⟩
        rcases List.mem_append.1 hold with hearlier | hself
        · exact hlast old hearlier
        · rw [List.mem_singleton.1 hself]
      · rcases List.mem_append.1 hold with hearlier | hself
        · obtain ⟨entry, hentry, hsame, hlater⟩ := hstays hearlier hkey
          exact ⟨entry, mem_put.2 (Or.inl ⟨hentry, hsame ▸ hkey⟩), hsame, hlater⟩
        · exact absurd (by rw [List.mem_singleton.1 hself]) hkey
    have hremembered : old ∈ calls →
        ∃ entry ∈ throttle.entries, entry.1 = old.key ∧ old.now ≤ entry.2 := fun hearlier =>
      ih hfew.front old hearlier hanswer fun later hlater =>
        hwithin later (List.mem_append_left _ hlater)
    cases hallows with
    | refused =>
      refine hremembered ((List.mem_append.1 hold).resolve_right fun hself => ?_)
      rw [List.mem_singleton.1 hself] at hanswer
      cases hanswer
    | renewed => exact hput _ fun hearlier _ => hremembered hearlier
    | added => exact hput _ fun hearlier _ => hremembered hearlier
    | evicted oldest hlookup hfull hmem holdest =>
      refine hput _ fun hearlier _ => ?_
      obtain ⟨entry, hentry, hsame, hlater⟩ := hremembered hearlier
      refine ⟨entry, List.mem_filter.2 ⟨hentry, decide_eq_true fun hgone => ?_⟩, hsame, hlater⟩
      have hself := hrecorded.distinct.eq hentry hmem hgone
      rw [List.lookup_eq_none_iff] at hlookup
      have hnew : ∀ entry ∈ throttle.entries, entry.1 ≠ key :=
        fun entry hentry => (bne_iff_ne.1 (hlookup entry hentry)).symm
      have hstart : oldest.2 ≤ now := hlast _ (hrecorded.called oldest hmem)
      have hgap : now - oldest.2 < window := by
        rw [hself] at hlater
        omega
      exact not_fewKeys_of_full hrecorded hfull hnew holdest hlast hstart hgap hfew

/-! ## The law of the window -/

theorem lookup_of_entry {entry : String × ℕ} (h : throttle.Distinct)
    (hentry : entry ∈ throttle.entries) : throttle.entries.lookup entry.1 = some entry.2 := by
  cases hlookup : throttle.entries.lookup entry.1 with
  | none =>
    rw [List.lookup_eq_none_iff] at hlookup
    exact absurd rfl (bne_iff_ne.1 (hlookup entry hentry))
  | some instant =>
    obtain ⟨front, back, hsplit, -⟩ := List.lookup_eq_some_iff.1 hlookup
    have hother : (entry.1, instant) ∈ throttle.entries := by simp [hsplit]
    rw [h.eq hentry hother rfl]

theorem ThrottleRun.split {before after : List ThrottleCall} {call : ThrottleCall}
    (h : ThrottleRun window calls throttle) (hcalls : calls = before ++ call :: after) :
    ∃ earlier later, ThrottleRun window before earlier ∧
      (∀ other ∈ before, other.now ≤ call.now) ∧
      Allows window earlier call.key call.now call.answer later := by
  induction h generalizing after with
  | new => simp at hcalls
  | @call calls throttle throttle' last hrun hlast hallows ih =>
    rcases List.eq_nil_or_concat after with rfl | ⟨rest, final, rfl⟩
    · obtain ⟨rfl, hsame⟩ := List.append_inj' hcalls rfl
      obtain rfl := List.singleton_inj.1 hsame
      exact ⟨throttle, throttle', hrun, hlast, hallows⟩
    · rw [List.concat_eq_append, ← List.cons_append, ← List.append_assoc] at hcalls
      exact ih (List.append_inj' hcalls rfl).1

theorem throttle_window_law (hrun : ThrottleRun window calls throttle) :
    throttle.entries.length ≤ maxThrottleEntries ∧
      ∀ before call after, calls = before ++ call :: after →
        (FewKeys window before →
          (∃ earlier ∈ before, earlier.key = call.key ∧ earlier.answer = true ∧
            call.now - earlier.now < window) → call.answer = false) ∧
        ((∀ earlier ∈ before, earlier.key = call.key → earlier.answer = true →
          window ≤ call.now - earlier.now) → call.answer = true) := by
  refine ⟨hrun.recorded.room, fun before call after hcalls => ?_⟩
  obtain ⟨table, later, hbefore, hlast, hallows⟩ := hrun.split hcalls
  have hrecorded := hbefore.recorded
  obtain ⟨key, now, answer⟩ := call
  refine ⟨?_, fun hpassed => ?_⟩
  · rintro hfew ⟨earlier, hearlier, hkey, hanswer, hwithin⟩
    obtain ⟨entry, hentry, hsame, hkept⟩ := hbefore.remembered hfew earlier hearlier hanswer
      fun other hother => by
        have hnow : other.now ≤ now := hlast other hother
        have hgap : now - earlier.now < window := hwithin
        omega
    have hlookup := lookup_of_entry hrecorded.distinct hentry
    rw [hsame.trans hkey] at hlookup
    cases hallows with
    | refused => rfl
    | renewed previous hprevious hlong =>
      obtain rfl := Option.some.inj (hlookup.symm.trans hprevious)
      have hgap : now - earlier.now < window := hwithin
      omega
    | added hnone => cases hlookup.symm.trans hnone
    | evicted _ hnone => cases hlookup.symm.trans hnone
  · cases hallows with
    | refused previous hprevious hsoon =>
      obtain ⟨front, back, hsplit, -⟩ := List.lookup_eq_some_iff.1 hprevious
      have hentry : (key, previous) ∈ table.entries := by simp [hsplit]
      have hlong : window ≤ now - previous := hpassed _ (hrecorded.called _ hentry) rfl rfl
      exact absurd hsoon (Nat.not_lt.2 hlong)
    | renewed => rfl
    | added => rfl
    | evicted => rfl

/-- A key is let through, called for again within its window, and again behind it. -/
def threeCalls : List ThrottleCall := [⟨"a", 0, true⟩, ⟨"a", 9, false⟩, ⟨"a", 10, true⟩]

theorem threeCalls_run : ThrottleRun 10 threeCalls ⟨[("a", 10)]⟩ := by
  have hnew : ThrottleRun 10 [] ⟨[]⟩ := .new
  have hfirst := hnew.call ⟨"a", 0, true⟩ (by simp) (allows_allow ⟨[]⟩ "a" 0 10)
  have hsecond := hfirst.call ⟨"a", 9, false⟩ (by simp) (allows_allow ⟨[("a", 0)]⟩ "a" 9 10)
  exact hsecond.call ⟨"a", 10, true⟩ (by simp) (allows_allow ⟨[("a", 0)]⟩ "a" 10 10)

theorem threeCalls_follow_window :
    (EventThrottle.mk [("a", 10)]).entries.length ≤ maxThrottleEntries ∧
      threeCalls[1].answer = false ∧ threeCalls[2].answer = true := by
  have hfew : FewKeys 10 [⟨"a", 0, true⟩] := by
    intro start
    refine (List.dedup_sublist _).length_le.trans ?_
    rw [List.length_map]
    exact (List.length_filter_le _ _).trans (by decide)
  obtain ⟨hroom, hlaw⟩ := throttle_window_law threeCalls_run
  refine ⟨hroom, ?_, ?_⟩
  · refine (hlaw [⟨"a", 0, true⟩] _ [⟨"a", 10, true⟩] rfl).1 hfew ?_
    exact ⟨⟨"a", 0, true⟩, by simp, rfl, rfl, by decide⟩
  · refine (hlaw [⟨"a", 0, true⟩, ⟨"a", 9, false⟩] _ [] rfl).2 ?_
    simp

end MacTypeControl.Host
