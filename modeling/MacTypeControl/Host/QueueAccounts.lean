import MacTypeControl.Host.SessionEventQueue
import MacTypeControl.Tables.Slots

/-!
# What goes into the queue comes out of it

Over every interleaving, the events taken and the events queued are together the events stored,
and the mark is set exactly while a refused push is unanswered.
-/

namespace MacTypeControl.SessionEvents

open Injection Tables

/-- The event in a slot, with the push that stored it. -/
def Slot.held (slot : Slot) : Option (ℕ × SessionChange) :=
  if slot.encoded = 0 then none else some (slot.writer, decode slot.encoded)

namespace SessionEventQueue

def heldAt (queue : SessionEventQueue) (index : Fin sessionEventQueueCapacity) :
    Option (ℕ × SessionChange) := (queue.slots index).held

def queued (queue : SessionEventQueue) : List (ℕ × SessionChange) :=
  (List.finRange sessionEventQueueCapacity).filterMap queue.heldAt

end SessionEventQueue

def storedEvents : List Observation → List (ℕ × SessionChange) :=
  List.filterMap fun
    | .stored push change => some (push, change)
    | _ => none

/-- The events taken, each with the push that stored it. -/
def takenEvents : List Observation → List (ℕ × SessionChange) :=
  List.filterMap fun
    | .took _ push change => some (push, change)
    | _ => none

theorem mem_storedEvents {history : List Observation} {push : ℕ} {change : SessionChange} :
    (push, change) ∈ storedEvents history ↔ .stored push change ∈ history := by
  unfold storedEvents
  rw [List.mem_filterMap]
  constructor
  · rintro ⟨observation, hmem, hevent⟩
    cases observation with
    | stored push' change' =>
      cases hevent
      exact hmem
    | _ => cases hevent
  · exact fun hmem => ⟨_, hmem, rfl⟩

/-- No pop has taken the mark since a push was refused. -/
def Unanswered (history : List Observation) : Prop :=
  ∃ newer push older, history = newer ++ .refused push :: older ∧ ∀ pop, .reported pop ∉ newer

/-- What was observed since a pop began. -/
def since (pop : ℕ) (history : List Observation) : List Observation :=
  history.takeWhile (· ≠ .began pop)

/-- What a call has left in the history, newest first. -/
def Recorded (id : ℕ) : Call → List Observation → Prop
  | .pushed change true, own => own = [.stored id change]
  | .pushed _ false, own => own = [.refused id]
  | .reading, own | .taking _ _, own | .popped none, own => own = [.began id]
  | .advancing _ change, own => ∃ push, own = [.took id push change, .began id]
  | .popped (some change), own => (∃ push, own = [.took id push change, .began id]) ∨
      (own = [.reported id] ∧ change = .overflow)
  | _, own => own = []

theorem Recorded.of_stored {id : ℕ} {call : Call} {change : SessionChange}
    {own : List Observation} (h : Recorded id call (.stored id change :: own)) : own = [] := by
  cases call with
  | pushed change' placed => cases placed <;> simp_all [Recorded]
  | popped change' => cases change' <;> simp_all [Recorded]
  | _ => simp_all [Recorded]

theorem unanswered_cons {observation : Observation} {history : List Observation} :
    Unanswered (observation :: history) ↔ (∃ push, observation = .refused push) ∨
      ((∀ pop, observation ≠ .reported pop) ∧ Unanswered history) := by
  constructor
  · rintro ⟨newer, push, older, hhistory, hnewer⟩
    cases newer with
    | nil => exact Or.inl ⟨push, (List.cons.inj hhistory).1⟩
    | cons first newer =>
      obtain ⟨rfl, hrest⟩ := List.cons.inj hhistory
      refine Or.inr ⟨fun pop hpop => hnewer pop (by simp [hpop]), newer, push, older, hrest, ?_⟩
      exact fun pop hpop => hnewer pop (List.mem_cons_of_mem _ hpop)
  · rintro (⟨push, rfl⟩ | ⟨hnot, newer, push, older, rfl, hnewer⟩)
    · exact ⟨[], push, history, rfl, fun pop => List.not_mem_nil⟩
    · refine ⟨observation :: newer, push, older, rfl, fun pop hpop => ?_⟩
      rcases List.mem_cons.1 hpop with hfirst | hlater
      · exact hnot pop hfirst.symm
      · exact hnewer pop hlater

theorem since_append {pop : ℕ} {observed history : List Observation}
    (h : .began pop ∉ observed) : since pop (observed ++ history) = observed ++ since pop history := by
  unfold since
  refine List.takeWhile_append_of_pos fun observation hobservation => ?_
  rw [decide_eq_true_eq]
  exact ne_of_mem_of_not_mem hobservation h

/-! ## One step -/

/-- What the step of one call can do to the queue and what it observes. -/
inductive Effect (queue : SessionEventQueue) (id : ℕ) (after : SessionEventQueue) :
    List Observation → Prop where
  | quiet {observed : List Observation} (hslots : after.heldAt = queue.heldAt)
      (hmark : after.overflowed = queue.overflowed)
      (hobserved : observed = [] ∨ (observed = [.began id] ∧ queue.overflowed = false)) :
      Effect queue id after observed
  | stored (index : Fin sessionEventQueueCapacity) (change : SessionChange)
      (hempty : queue.heldAt index = none)
      (hslots : after.heldAt = Function.update queue.heldAt index (some (id, change)))
      (hmark : after.overflowed = queue.overflowed) :
      Effect queue id after [.stored id change]
  | took (index : Fin sessionEventQueueCapacity) (push : ℕ) (change : SessionChange)
      (hheld : queue.heldAt index = some (push, change))
      (hslots : after.heldAt = Function.update queue.heldAt index none)
      (hmark : after.overflowed = queue.overflowed) :
      Effect queue id after [.took id push change]
  | refused (hslots : after.heldAt = queue.heldAt) (hmark : after.overflowed = true) :
      Effect queue id after [.refused id]
  | reported (hslots : after.heldAt = queue.heldAt) (hmark : after.overflowed = false) :
      Effect queue id after [.reported id]

/-- The word that a push is about to store holds its event. -/
def Call.Encodes : Call → Prop
  | .placing change encoded _ _ => encoded ≠ 0 ∧ decode encoded = change
  | _ => True

namespace SessionEventQueue

theorem heldAt_update (queue : SessionEventQueue) (index : Fin sessionEventQueueCapacity)
    (slot : Slot) :
    ({ queue with slots := Function.update queue.slots index slot } : SessionEventQueue).heldAt =
      Function.update queue.heldAt index slot.held :=
  Function.comp_update Slot.held queue.slots index slot

theorem heldAt_eq_none {queue : SessionEventQueue} {index : Fin sessionEventQueueCapacity} :
    queue.heldAt index = none ↔ (queue.slots index).encoded = 0 := by
  unfold heldAt Slot.held
  split <;> simp_all

theorem heldAt_eq_some {queue : SessionEventQueue} {index : Fin sessionEventQueueCapacity}
    (h : (queue.slots index).encoded ≠ 0) : queue.heldAt index =
      some ((queue.slots index).writer, decode (queue.slots index).encoded) :=
  if_neg h

theorem next_effect {queue : SessionEventQueue} {id : ℕ} {call : Call} (h : call.Encodes) :
    Effect queue id (queue.next id call).1 (queue.next id call).2.2 := by
  cases call with
  | pushing eventType sessionId =>
    unfold next
    dsimp only
    cases encode eventType sessionId with
    | none => exact .quiet rfl rfl (Or.inl rfl)
    | some encoded => exact .quiet rfl rfl (Or.inl rfl)
  | placing change encoded start offset =>
    obtain ⟨hencoded, hchange⟩ := h
    unfold next
    dsimp only
    split
    · next hempty =>
      have hheld : (Slot.mk encoded id).held = some (id, change) := by
        rw [← hchange]
        exact if_neg hencoded
      refine .stored (slotIndex start offset) change (heldAt_eq_none.2 hempty) ?_ rfl
      rw [heldAt_update, hheld]
    · split <;> exact .quiet rfl rfl (Or.inl rfl)
  | overflowing change => exact .refused rfl rfl
  | pushed change placed => exact .quiet rfl rfl (Or.inl rfl)
  | popping =>
    unfold next
    dsimp only
    split
    · exact .reported rfl rfl
    · next hmark => exact .quiet rfl rfl (Or.inr ⟨rfl, by simpa using hmark⟩)
  | reading => exact .quiet rfl rfl (Or.inl rfl)
  | taking start offset =>
    unfold next
    dsimp only
    split
    · split <;> exact .quiet rfl rfl (Or.inl rfl)
    · next hheld =>
      refine .took (slotIndex start offset) _ _ (heldAt_eq_some hheld) ?_ rfl
      exact heldAt_update _ _ _
  | advancing index change => exact .quiet rfl rfl (Or.inl rfl)
  | popped change => exact .quiet rfl rfl (Or.inl rfl)

theorem next_encodes {queue : SessionEventQueue} {id : ℕ} {call : Call} (h : call.Encodes) :
    (queue.next id call).2.1.Encodes := by
  cases call with
  | pushing eventType sessionId =>
    unfold next
    dsimp only
    split
    · trivial
    · next hencoded => exact decode_of_encode hencoded
  | placing change encoded start offset =>
    unfold next
    dsimp only
    split
    · trivial
    · split
      · exact h
      · trivial
  | overflowing change => trivial
  | pushed change placed => trivial
  | popping => unfold next; dsimp only; split <;> trivial
  | reading => trivial
  | taking start offset =>
    unfold next
    dsimp only
    split
    · split <;> trivial
    · trivial
  | advancing index change => trivial
  | popped change => trivial

/-- Every step of a call continues what the call has left in the history. -/
theorem next_recorded {queue : SessionEventQueue} {id : ℕ} {call : Call}
    {own : List Observation} (h : Recorded id call own) :
    Recorded id (queue.next id call).2.1 ((queue.next id call).2.2 ++ own) := by
  cases call with
  | pushing eventType sessionId =>
    unfold next
    dsimp only
    split <;> exact h
  | placing change encoded start offset =>
    have hown : own = [] := h
    unfold next
    dsimp only
    split
    · rw [hown]
      rfl
    · split <;> exact hown
  | overflowing change =>
    have hown : own = [] := h
    rw [hown]
    rfl
  | pushed change placed => exact h
  | popping =>
    have hown : own = [] := h
    unfold next
    dsimp only
    rw [hown]
    split
    · exact Or.inr ⟨rfl, rfl⟩
    · rfl
  | reading => exact h
  | taking start offset =>
    have hown : own = [.began id] := h
    unfold next
    dsimp only
    split
    · split <;> exact hown
    · rw [hown]
      exact ⟨_, rfl⟩
  | advancing index change => exact Or.inl h
  | popped change => exact h

end SessionEventQueue

namespace Effect

variable {queue after : SessionEventQueue} {id : ℕ} {observed history : List Observation}

theorem call_of_mem (h : Effect queue id after observed) :
    ∀ observation ∈ observed, observation.call = id := by
  cases h with
  | quiet hslots hmark hobserved =>
    rcases hobserved with rfl | ⟨rfl, -⟩ <;> simp [Observation.call]
  | _ => simp [Observation.call]

theorem mark (h : Effect queue id after observed)
    (hmark : queue.overflowed = true ↔ Unanswered history) :
    after.overflowed = true ↔ Unanswered (observed ++ history) := by
  cases h with
  | quiet hslots hsame hobserved =>
    rw [hsame, hmark]
    rcases hobserved with rfl | ⟨rfl, -⟩ <;> simp [unanswered_cons]
  | stored index change hempty hslots hsame => simp [hsame, hmark, unanswered_cons]
  | took index push change hheld hslots hsame => simp [hsame, hmark, unanswered_cons]
  | refused hslots hset => simp [hset, unanswered_cons]
  | reported hslots hclear => simp [hclear, unanswered_cons]

theorem balance (h : Effect queue id after observed)
    (hbalance : (storedEvents history).Perm (takenEvents history ++ queue.queued)) :
    (storedEvents (observed ++ history)).Perm
      (takenEvents (observed ++ history) ++ after.queued) := by
  have hall := List.nodup_finRange sessionEventQueueCapacity
  unfold SessionEventQueue.queued at hbalance ⊢
  cases h with
  | quiet hslots hmark hobserved =>
    rw [hslots]
    rcases hobserved with rfl | ⟨rfl, -⟩ <;> exact hbalance
  | stored index change hempty hslots hmark =>
    have hfill := perm_filterMap_fill hall (List.mem_finRange index) hempty (id, change)
    rw [hslots]
    exact (hbalance.cons _).trans
      (List.perm_middle.symm.trans (hfill.symm.append_left (takenEvents history)))
  | took index push change hheld hslots hmark =>
    have hemptied := perm_filterMap_empty hall (List.mem_finRange index) hheld
    rw [hslots]
    exact hbalance.trans ((hemptied.append_left _).trans List.perm_middle)
  | refused hslots hmark => rw [hslots]; exact hbalance
  | reported hslots hmark => rw [hslots]; exact hbalance

/-- The queue since a pop began: what it has searched so far it found empty, so whatever is there
now was put there meanwhile. -/
structure Searched (queue : SessionEventQueue) (history : List Observation)
    (pop start offset : ℕ) : Prop where
  mark : queue.overflowed = true → ∃ push, .refused push ∈ since pop history
  slots : ∀ k < offset, ∀ push change, queue.heldAt (slotIndex start k) = some (push, change) →
    .stored push change ∈ since pop history

theorem searched (h : Effect queue id after observed) {pop start offset : ℕ}
    (hnot : .began pop ∉ observed) (hsearched : Searched queue history pop start offset) :
    Searched after (observed ++ history) pop start offset := by
  have hsince := @since_append pop observed history hnot
  have hlater : ∀ observation ∈ since pop history,
      observation ∈ since pop (observed ++ history) := by
    intro observation hmem
    rw [hsince]
    exact List.mem_append_right _ hmem
  have hmark : after.overflowed = queue.overflowed →
      after.overflowed = true → ∃ push, .refused push ∈ since pop (observed ++ history) := by
    intro hsame hset
    obtain ⟨push, hpush⟩ := hsearched.mark (hsame ▸ hset)
    exact ⟨push, hlater _ hpush⟩
  have hslots : after.heldAt = queue.heldAt → ∀ k < offset, ∀ push change,
      after.heldAt (slotIndex start k) = some (push, change) →
      .stored push change ∈ since pop (observed ++ history) := by
    intro hsame k hk push change hheld
    exact hlater _ (hsearched.slots k hk push change (hsame ▸ hheld))
  cases h with
  | quiet hkept hsame hobserved => exact ⟨hmark hsame, hslots hkept⟩
  | stored index stored hempty hupdate hsame =>
    refine ⟨hmark hsame, fun k hk push change hheld => ?_⟩
    rw [hupdate] at hheld
    by_cases hindex : slotIndex start k = index
    · rw [hindex, Function.update_self] at hheld
      cases hheld
      rw [hsince]
      exact List.mem_cons_self
    · rw [Function.update_of_ne hindex] at hheld
      exact hlater _ (hsearched.slots k hk push change hheld)
  | took index taken event hwas hupdate hsame =>
    refine ⟨hmark hsame, fun k hk push change hheld => ?_⟩
    rw [hupdate] at hheld
    by_cases hindex : slotIndex start k = index
    · rw [hindex, Function.update_self] at hheld
      cases hheld
    · rw [Function.update_of_ne hindex] at hheld
      exact hlater _ (hsearched.slots k hk push change hheld)
  | refused hkept hset =>
    refine ⟨fun _ => ⟨id, ?_⟩, hslots hkept⟩
    rw [hsince]
    exact List.mem_cons_self
  | reported hkept hclear =>
    refine ⟨fun hset => ?_, hslots hkept⟩
    rw [hclear] at hset
    cases hset

end Effect

/-! ## Whole runs -/

/-- How far the search of a pop has come. -/
def Call.Searching (queue : SessionEventQueue) (history : List Observation) (id : ℕ) :
    Call → Prop
  | .reading => Effect.Searched queue history id 0 0
  | .taking start offset => Effect.Searched queue history id start offset
  | _ => True

/-- Nothing that was queued when a pop that returns nothing began is queued still, and no overflow
that was pending then is pending still. -/
structure OnlySince (run : QueueRun) (pop : ℕ) : Prop where
  began : .began pop ∈ run.history
  queued : ∀ event ∈ run.queue.queued, .stored event.1 event.2 ∈ since pop run.history
  mark : run.queue.overflowed = true → ∃ push, .refused push ∈ since pop run.history

namespace SessionEventQueue

theorem mem_queued {queue : SessionEventQueue} {event : ℕ × SessionChange} :
    event ∈ queue.queued ↔ ∃ index, queue.heldAt index = some event := by
  simp [queued]

/-- The step of a pop that finds a slot empty extends its search by that slot. -/
theorem next_searching {queue : SessionEventQueue} {history : List Observation} {id : ℕ}
    {call : Call} (h : call.Searching queue history id) :
    (queue.next id call).2.1.Searching (queue.next id call).1
      ((queue.next id call).2.2 ++ history) id := by
  cases call with
  | pushing eventType sessionId => unfold next; dsimp only; split <;> trivial
  | placing change encoded start offset =>
    unfold next
    dsimp only
    split
    · trivial
    · split <;> trivial
  | overflowing change => trivial
  | pushed change placed => trivial
  | popping =>
    unfold next
    dsimp only
    split
    · trivial
    · next hmark => exact ⟨fun hset => absurd hset hmark, fun k hk => absurd hk (Nat.not_lt_zero k)⟩
  | reading => exact ⟨h.mark, fun k hk => absurd hk (Nat.not_lt_zero k)⟩
  | taking start offset =>
    unfold next
    dsimp only
    split
    · next hempty =>
      split
      · refine ⟨h.mark, fun k hk push change hheld => ?_⟩
        by_cases hlast : k = offset
        · rw [hlast, heldAt_eq_none.2 hempty] at hheld
          cases hheld
        · exact h.slots k (by omega) push change hheld
      · trivial
    · trivial
  | advancing index change => trivial
  | popped change => trivial

/-- A pop returns nothing after it found the last slot of its scan empty. -/
theorem next_popped_none {queue : SessionEventQueue} {id : ℕ} {call : Call}
    (hcall : call ≠ .popped none) (h : (queue.next id call).2.1 = .popped none) :
    ∃ start offset, call = .taking start offset ∧ sessionEventQueueCapacity ≤ offset + 1 ∧
      (queue.slots (slotIndex start offset)).encoded = 0 ∧
      queue.next id call = (queue, .popped none, []) := by
  cases call with
  | taking start offset =>
    unfold next at h ⊢
    dsimp only at h ⊢
    split at h
    · next hempty =>
      split at h
      · cases h
      · next hlast =>
        refine ⟨start, offset, rfl, Nat.le_of_not_lt hlast, hempty, ?_⟩
        rw [if_pos hempty, if_neg hlast]
    · cases h
  | popped change =>
    cases h
    exact absurd rfl hcall
  | pushing eventType sessionId => unfold next at h; dsimp only at h; split at h <;> cases h
  | placing change encoded start offset =>
    unfold next at h
    dsimp only at h
    split at h
    · cases h
    · split at h <;> cases h
  | popping => unfold next at h; dsimp only at h; split at h <;> cases h
  | _ => cases h

end SessionEventQueue

namespace QueueRun

/-- The books of the queue. Every call has left what `Recorded` says, no push has stored twice, the
stored events are those taken and those queued, and the mark stands for an unanswered refusal. -/
structure Accounts (run : QueueRun) : Prop where
  recorded : ∀ id call, run.calls[id]? = some call →
    Recorded id call (run.history.filter (·.call = id))
  once : ((storedEvents run.history).map Prod.fst).Nodup
  balance : (storedEvents run.history).Perm (takenEvents run.history ++ run.queue.queued)
  mark : run.queue.overflowed = true ↔ Unanswered run.history

structure Sound (run : QueueRun) : Prop extends Accounts run where
  made : ∀ observation ∈ run.history, observation.call < run.calls.length
  encodes : ∀ (id : ℕ) (call : Call), run.calls[id]? = some call → call.Encodes
  searching : ∀ (id : ℕ) (call : Call), run.calls[id]? = some call → call.Searching run.queue run.history id

theorem sound_start : Sound start where
  recorded id call h := by simp [start] at h
  once := List.nodup_nil
  balance := by decide
  mark := by
    refine iff_of_false Bool.false_ne_true ?_
    rintro ⟨newer, push, older, hhistory, -⟩
    simp [start] at hhistory
  made observation h := absurd h List.not_mem_nil
  encodes id call h := by simp [start] at h
  searching id call h := by simp [start] at h

/-- A new call has left nothing and searched nothing. -/
theorem Sound.call {run : QueueRun} (h : Sound run) {call : Call}
    (hcall : (∃ eventType sessionId, call = .pushing eventType sessionId) ∨ call = .popping) :
    Sound { run with calls := run.calls ++ [call] } := by
  have hcases : ∀ {id call'}, (run.calls ++ [call])[id]? = some call' →
      run.calls[id]? = some call' ∨ (id = run.calls.length ∧ call' = call) := by
    intro id call' hid
    rw [List.getElem?_append] at hid
    split at hid
    · exact Or.inl hid
    · next hlength =>
      rw [List.getElem?_singleton] at hid
      split at hid
      · exact Or.inr ⟨by omega, (Option.some.inj hid).symm⟩
      · cases hid
  have hnothing : run.history.filter (·.call = run.calls.length) = [] := by
    rw [List.filter_eq_nil_iff]
    intro observation hmem
    have hmade := h.made observation hmem
    simp only [decide_eq_true_eq]
    omega
  refine ⟨⟨fun id call' hid => ?_, h.once, h.balance, h.mark⟩, fun observation hmem => ?_,
    fun id call' hid => ?_, fun id call' hid => ?_⟩
  · rcases hcases hid with hold | ⟨rfl, rfl⟩
    · exact h.recorded id call' hold
    · change Recorded _ _ (run.history.filter _)
      rw [hnothing]
      rcases hcall with ⟨eventType, sessionId, rfl⟩ | rfl <;> rfl
  · have hmade := h.made observation hmem
    rw [List.length_append]
    omega
  · rcases hcases hid with hold | ⟨rfl, rfl⟩
    · exact h.encodes id call' hold
    · rcases hcall with ⟨eventType, sessionId, rfl⟩ | rfl <;> trivial
  · rcases hcases hid with hold | ⟨rfl, rfl⟩
    · exact h.searching id call' hold
    · rcases hcall with ⟨eventType, sessionId, rfl⟩ | rfl <;> trivial

theorem step_advance {run : QueueRun} {id : ℕ} {call : Call} (h : run.calls[id]? = some call) :
    run.step (.advance id) = ⟨(run.queue.next id call).1,
      run.calls.set id (run.queue.next id call).2.1,
      (run.queue.next id call).2.2 ++ run.history⟩ := by
  simp only [step, h]

/-- A push that is about to store has not stored yet. -/
theorem Sound.once_next {run : QueueRun} (h : Sound run) {id : ℕ} {call : Call}
    (hcall : run.calls[id]? = some call) :
    ((storedEvents ((run.queue.next id call).2.2 ++ run.history)).map Prod.fst).Nodup := by
  have hrecorded := @SessionEventQueue.next_recorded run.queue id call _ (h.recorded id call hcall)
  have heffect : Effect run.queue id _ _ := SessionEventQueue.next_effect (h.encodes id call hcall)
  have hkept : storedEvents (run.queue.next id call).2.2 = [] →
      ((storedEvents ((run.queue.next id call).2.2 ++ run.history)).map Prod.fst).Nodup := by
    intro hnone
    have hsame : storedEvents ((run.queue.next id call).2.2 ++ run.history) =
        storedEvents run.history := by
      unfold storedEvents at hnone ⊢
      rw [List.filterMap_append, hnone, List.nil_append]
    rw [hsame]
    exact h.once
  revert hkept hrecorded heffect
  generalize (run.queue.next id call).2.2 = observed
  intro hrecorded heffect hkept
  cases heffect with
  | quiet hslots hmark hobserved =>
    rcases hobserved with rfl | ⟨rfl, -⟩
    · exact hkept rfl
    · exact hkept rfl
  | stored index change hempty hslots hmark =>
    have hown : run.history.filter (·.call = id) = [] := hrecorded.of_stored
    refine List.nodup_cons.2 ⟨fun hmem => ?_, h.once⟩
    obtain ⟨⟨push, event⟩, hevent, hpush⟩ := List.mem_map.1 hmem
    have hobserved : .stored push event ∈ run.history := mem_storedEvents.1 hevent
    have hmine : .stored push event ∈ run.history.filter (·.call = id) :=
      List.mem_filter.2 ⟨hobserved, decide_eq_true hpush⟩
    rw [hown] at hmine
    exact absurd hmine List.not_mem_nil
  | took index push change hheld hslots hmark => exact hkept rfl
  | refused hslots hmark => exact hkept rfl
  | reported hslots hmark => exact hkept rfl

theorem Sound.advance {run : QueueRun} (h : Sound run) {id : ℕ} {call : Call}
    (hcall : run.calls[id]? = some call) : Sound (run.step (.advance id)) := by
  have heffect : Effect run.queue id _ _ := SessionEventQueue.next_effect (h.encodes id call hcall)
  have hown : ∀ observation ∈ (run.queue.next id call).2.2, observation.call = id :=
    heffect.call_of_mem
  have hid : id < run.calls.length := (List.getElem?_eq_some_iff.1 hcall).1
  have hcases : ∀ {other call'},
      (run.calls.set id (run.queue.next id call).2.1)[other]? = some call' →
      (other = id ∧ call' = (run.queue.next id call).2.1) ∨
        (other ≠ id ∧ run.calls[other]? = some call') := by
    intro other call' hother
    by_cases hsame : other = id
    · rw [hsame, List.getElem?_set_self hid] at hother
      exact Or.inl ⟨hsame, (Option.some.inj hother).symm⟩
    · rw [List.getElem?_set_ne (Ne.symm hsame)] at hother
      exact Or.inr ⟨hsame, hother⟩
  rw [step_advance hcall]
  refine ⟨⟨fun other call' hother => ?_, ?_, heffect.balance h.balance, heffect.mark h.mark⟩,
    fun observation hmem => ?_, fun other call' hother => ?_, fun other call' hother => ?_⟩
  · -- The step adds to the own history of the call that takes it, and to no other.
    change Recorded other call' (((run.queue.next id call).2.2 ++ run.history).filter _)
    rw [List.filter_append]
    rcases hcases hother with ⟨rfl, rfl⟩ | ⟨hne, hold⟩
    · rw [List.filter_eq_self.2 fun o ho => decide_eq_true (hown o ho)]
      exact SessionEventQueue.next_recorded (h.recorded other call hcall)
    · have hnone : (run.queue.next id call).2.2.filter (·.call = other) = [] := by
        rw [List.filter_eq_nil_iff]
        intro observation hmem
        rw [decide_eq_true_eq, hown observation hmem]
        exact Ne.symm hne
      rw [hnone]
      exact h.recorded other call' hold
  · exact h.once_next hcall
  · rw [List.length_set]
    rcases List.mem_append.1 hmem with hnew | hold
    · rw [hown observation hnew]
      exact hid
    · exact h.made observation hold
  · rcases hcases hother with ⟨rfl, rfl⟩ | ⟨hne, hold⟩
    · exact SessionEventQueue.next_encodes (h.encodes other call hcall)
    · exact h.encodes other call' hold
  · rcases hcases hother with ⟨rfl, rfl⟩ | ⟨hne, hold⟩
    · exact SessionEventQueue.next_searching (h.searching other call hcall)
    · have hnot : .began other ∉ (run.queue.next id call).2.2 :=
        fun hmem => hne (hown _ hmem)
      have hsearching := h.searching other call' hold
      cases call' with
      | reading => exact heffect.searched hnot hsearching
      | taking start offset => exact heffect.searched hnot hsearching
      | _ => trivial

theorem Sound.step {run : QueueRun} (h : Sound run) (action : QueueAction) :
    Sound (run.step action) := by
  cases action with
  | push eventType sessionId => exact h.call (Or.inl ⟨eventType, sessionId, rfl⟩)
  | pop => exact h.call (Or.inr rfl)
  | advance id =>
    cases hcall : run.calls[id]? with
    | none =>
      have hsame : run.step (.advance id) = run := by simp only [QueueRun.step, hcall]
      rw [hsame]
      exact h
    | some call => exact h.advance hcall

theorem Sound.steps {run : QueueRun} (h : Sound run) (actions : List QueueAction) :
    Sound (run.steps actions) := by
  induction actions generalizing run with
  | nil => exact h
  | cons action actions ih => exact ih (h.step action)

/-- The pop takes its last step and returns nothing. -/
def ReturnsNothing (run : QueueRun) (pop : ℕ) : Prop :=
  run.calls[pop]? ≠ some (.popped none) ∧
    (run.step (.advance pop)).calls[pop]? = some (.popped none)

/-- The last slot was empty as well, so the search covers the queue. -/
theorem Sound.onlySince {run : QueueRun} (h : Sound run) {pop : ℕ} (hpop : ReturnsNothing run pop) :
    OnlySince (run.step (.advance pop)) pop := by
  obtain ⟨hbefore, hafter⟩ := hpop
  cases hcall : run.calls[pop]? with
  | none =>
    simp only [QueueRun.step, hcall] at hafter
    cases hafter
  | some call =>
    have hid : pop < run.calls.length := (List.getElem?_eq_some_iff.1 hcall).1
    rw [hcall] at hbefore
    rw [step_advance hcall] at hafter
    dsimp only at hafter
    rw [List.getElem?_set_self hid] at hafter
    obtain ⟨start, offset, rfl, hlast, hempty, hnext⟩ := SessionEventQueue.next_popped_none
      (fun hsame => hbefore (congrArg some hsame)) (Option.some.inj hafter)
    have hsearched : Effect.Searched run.queue run.history pop start offset :=
      h.searching pop _ hcall
    have hrecorded : run.history.filter (·.call = pop) = [.began pop] := h.recorded pop _ hcall
    rw [step_advance hcall, hnext]
    refine ⟨List.mem_of_mem_filter (p := fun o => decide (o.call = pop)) ?_, fun event hevent => ?_,
      hsearched.mark⟩
    · exact hrecorded ▸ List.mem_singleton_self _
    · obtain ⟨index, hindex⟩ := SessionEventQueue.mem_queued.1 hevent
      obtain ⟨k, hk, rfl⟩ := exists_slotIndex start index
      by_cases hkoffset : k = offset
      · rw [hkoffset, SessionEventQueue.heldAt_eq_none.2 hempty] at hindex
        cases hindex
      · exact hsearched.slots k (by omega) event.1 event.2 hindex

/-- A refused push is answered by a pop that takes the mark, or the mark still stands. -/
theorem Accounts.answered {run : QueueRun} (h : Accounts run) {newer older : List Observation}
    {push : ℕ} (hhistory : run.history = newer ++ .refused push :: older) :
    run.queue.overflowed = true ∨ ∃ pop, .reported pop ∈ newer := by
  by_cases hanswer : ∃ pop, .reported pop ∈ newer
  · exact Or.inr hanswer
  · exact Or.inl (h.mark.2 ⟨newer, push, older, hhistory, not_exists.1 hanswer⟩)

/-- Over every interleaving the queue keeps its books, the mark is what the next pop returns, and a
pop that returns nothing leaves only what was put there since it began. -/
theorem queue_keeps_accounts (actions : List QueueAction) :
    let run := start.steps actions
    Accounts run ∧
      (∀ newer push older, run.history = newer ++ .refused push :: older →
        run.queue.overflowed = true ∨ ∃ pop, .reported pop ∈ newer) ∧
      (∀ pop, run.queue.overflowed = true → run.calls[pop]? = some .popping →
        (run.step (.advance pop)).calls[pop]? = some (.popped (some .overflow))) ∧
      ∀ pop, ReturnsNothing run pop → OnlySince (run.step (.advance pop)) pop := by
  intro run
  have hsound : Sound run := sound_start.steps actions
  refine ⟨hsound.toAccounts, fun newer push older => hsound.toAccounts.answered, ?_,
    fun pop => hsound.onlySince⟩
  intro pop hmark hpopping
  have hid : pop < run.calls.length := (List.getElem?_eq_some_iff.1 hpopping).1
  rw [step_advance hpopping]
  dsimp only
  rw [List.getElem?_set_self hid]
  simp [SessionEventQueue.next, hmark]

/-! ## A pop that returns nothing from a queue that is never empty -/

/-- Two pops find the first slot empty, a push fills it, and the second pop takes the event that the
first would have found further on. -/
def searchPastPush : List QueueAction :=
  [.push 5 7, .push 6 8, .pop, .pop] ++ [0, 1, 1, 2, 2, 2, 3, 3, 3, 0, 3].map .advance ++
    List.replicate 62 (.advance 2)

theorem nothing_while_queued :
    ReturnsNothing (start.steps searchPastPush) 2 ∧
      ((start.steps searchPastPush).step (.advance 2)).queue.queued = [(0, ⟨5, 7⟩)] ∧
      ∀ n < 71, (start.steps (searchPastPush.take (7 + n))).queue.queued ≠ [] := by
  unfold ReturnsNothing
  decide +kernel

end QueueRun

end MacTypeControl.SessionEvents
