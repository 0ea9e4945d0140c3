import MacTypeControl.Injection.Model
import Mathlib.Data.List.FinRange
import Mathlib.Tactic

/-!
# The queue of session changes

The control handler pushes session changes, and the driver pops them. A push and a pop are
sequences of atomic steps on shared cells. Any number of calls are under way at once, and their
steps interleave in any order.
-/

namespace MacTypeControl

namespace Injection.SessionChange

deriving instance DecidableEq for SessionChange

def overflow : SessionChange := ⟨overflowEventType, 0⟩

end Injection.SessionChange

namespace SessionEvents

open Injection

def sessionEventQueueCapacity : ℕ := 64

/-- The cursors are machine words. -/
def wrappingAdd (a b : ℕ) : ℕ := (a + b) % 2 ^ 64

/-- A slot of the queue, empty where `encoded` is zero. `writer` is the push that stored the
value. The code does not keep it. -/
structure Slot where
  encoded : ℕ
  writer : ℕ

structure SessionEventQueue where
  slots : Fin sessionEventQueueCapacity → Slot
  writeCursor : ℕ
  readCursor : ℕ
  overflowed : Bool

/-- The event as a word, shifted by one so that zero is free to mark an empty slot. -/
def encode (eventType sessionId : UInt32) : Option ℕ :=
  let raw := eventType.toNat <<< 32 ||| sessionId.toNat
  if raw + 1 < 2 ^ 64 then some (raw + 1) else none

def decode (encoded : ℕ) : SessionChange :=
  let raw := encoded - 1
  ⟨(raw >>> 32) % 2 ^ 32, raw % 2 ^ 32⟩

def slotIndex (start offset : ℕ) : Fin sessionEventQueueCapacity :=
  ⟨wrappingAdd start offset % sessionEventQueueCapacity, Nat.mod_lt _ (by decide)⟩

/-- A call, by the atomic step that it takes next. A push keeps its event to the end. -/
inductive Call where
  | pushing (eventType sessionId : UInt32)
  | placing (change : SessionChange) (encoded start offset : ℕ)
  | overflowing (change : SessionChange)
  | pushed (change : SessionChange) (placed : Bool)
  | popping
  | reading
  | taking (start offset : ℕ)
  | advancing (index : ℕ) (change : SessionChange)
  | popped (change : Option SessionChange)
  deriving DecidableEq

/-- What a call has done to the queue: a push stored its event or set the mark, and a pop found no
mark, took the event of a push, or took the mark. -/
inductive Observation where
  | stored (push : ℕ) (change : SessionChange)
  | refused (push : ℕ)
  | began (pop : ℕ)
  | took (pop push : ℕ) (change : SessionChange)
  | reported (pop : ℕ)
  deriving DecidableEq

def Observation.call : Observation → ℕ
  | .stored call _ | .refused call | .began call | .took call _ _ | .reported call => call

namespace SessionEventQueue

def new : SessionEventQueue := ⟨fun _ => ⟨0, 0⟩, 0, 0, false⟩

/-- The next atomic step of the call `id`. -/
def next (queue : SessionEventQueue) (id : ℕ) :
    Call → SessionEventQueue × Call × List Observation
  | .pushing eventType sessionId =>
    let change : SessionChange := ⟨eventType.toNat, sessionId.toNat⟩
    match encode eventType sessionId with
    | none => (queue, .overflowing change, [])
    | some encoded => ({ queue with writeCursor := wrappingAdd queue.writeCursor 1 },
        .placing change encoded queue.writeCursor 0, [])
  | .placing change encoded start offset =>
    let index := slotIndex start offset
    if (queue.slots index).encoded = 0 then
      ({ queue with slots := Function.update queue.slots index ⟨encoded, id⟩ },
        .pushed change true, [.stored id change])
    else if offset + 1 < sessionEventQueueCapacity then
      (queue, .placing change encoded start (offset + 1), [])
    else (queue, .overflowing change, [])
  | .overflowing change =>
    ({ queue with overflowed := true }, .pushed change false, [.refused id])
  | .popping =>
    if queue.overflowed then
      ({ queue with overflowed := false }, .popped (some .overflow), [.reported id])
    else (queue, .reading, [.began id])
  | .reading => (queue, .taking queue.readCursor 0, [])
  | .taking start offset =>
    let index := slotIndex start offset
    let slot := queue.slots index
    if slot.encoded = 0 then
      if offset + 1 < sessionEventQueueCapacity then (queue, .taking start (offset + 1), [])
      else (queue, .popped none, [])
    else
      ({ queue with slots := Function.update queue.slots index ⟨0, slot.writer⟩ },
        .advancing index (decode slot.encoded), [.took id slot.writer (decode slot.encoded)])
  | .advancing index change =>
    ({ queue with readCursor := wrappingAdd index 1 }, .popped (some change), [])
  | .pushed change placed => (queue, .pushed change placed, [])
  | .popped change => (queue, .popped change, [])

end SessionEventQueue

inductive QueueAction where
  | push (eventType sessionId : UInt32)
  | pop
  | advance (id : ℕ)

/-- The queue in use. The calls are numbered in the order in which they were made, and the history
has the newest observation first. -/
structure QueueRun where
  queue : SessionEventQueue
  calls : List Call
  history : List Observation

namespace QueueRun

def start : QueueRun := ⟨.new, [], []⟩

def step (run : QueueRun) : QueueAction → QueueRun
  | .push eventType sessionId =>
    { run with calls := run.calls ++ [.pushing eventType sessionId] }
  | .pop => { run with calls := run.calls ++ [.popping] }
  | .advance id =>
    match run.calls[id]? with
    | none => run
    | some call =>
      let (queue, call, observed) := run.queue.next id call
      ⟨queue, run.calls.set id call, observed ++ run.history⟩

def steps (run : QueueRun) (actions : List QueueAction) : QueueRun := actions.foldl step run

end QueueRun

/-! ## The encoding -/

theorem decode_of_encode {eventType sessionId : UInt32} {encoded : ℕ}
    (h : encode eventType sessionId = some encoded) :
    encoded ≠ 0 ∧ decode encoded = ⟨eventType.toNat, sessionId.toNat⟩ := by
  have hsession : sessionId.toNat < 2 ^ 32 := sessionId.toNat_lt
  have hevent : eventType.toNat < 2 ^ 32 := eventType.toNat_lt
  unfold encode at h
  rw [← Nat.shiftLeft_add_eq_or_of_lt hsession, Nat.shiftLeft_eq] at h
  dsimp only at h
  split at h
  · have hencoded : encoded = eventType.toNat * 2 ^ 32 + sessionId.toNat + 1 :=
      (Option.some.inj h).symm
    refine ⟨by omega, ?_⟩
    unfold decode
    dsimp only
    rw [hencoded, Nat.shiftRight_eq_div_pow]
    have htype : (eventType.toNat * 2 ^ 32 + sessionId.toNat + 1 - 1) / 2 ^ 32 % 2 ^ 32 =
        eventType.toNat := by omega
    have hid : (eventType.toNat * 2 ^ 32 + sessionId.toNat + 1 - 1) % 2 ^ 32 =
        sessionId.toNat := by omega
    rw [htype, hid]
  · cases h

/-- A scan visits every slot, wherever it starts. -/
theorem exists_slotIndex (start : ℕ) (index : Fin sessionEventQueueCapacity) :
    ∃ offset < sessionEventQueueCapacity, slotIndex start offset = index := by
  have hindex : index.val < 64 := index.isLt
  refine ⟨(index.val + 64 - start % 64) % 64, Nat.mod_lt _ (by decide), Fin.ext ?_⟩
  change (start + (index.val + 64 - start % 64) % 64) % 2 ^ 64 % 64 = index.val
  omega

end SessionEvents

end MacTypeControl
