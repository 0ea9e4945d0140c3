import MacTypeControl.Preview.HelperRequests
import MacTypeControl.Preview.HelperRuns

/-!
# What a request to a preview helper returns

Whatever the processes do, a call ends after a bounded number of waits, and its result is a frame
that carries the number of the last request that was sent. Over a session the numbers of the
requests do not repeat, so that a helper which answers only what it was asked is never heard twice.
-/

namespace MacTypeControl.Preview

namespace Entry

def sent? : Entry → Option (ℕ × Frame)
  | .sent process frame => some (process, frame)
  | _ => none

end Entry

/-- The requests of a log, each with the process to which it was sent. -/
def sentOf (log : List Entry) : List (ℕ × Frame) := log.filterMap Entry.sent?

namespace PreviewManager

variable {σ : Type} {env : Surroundings σ} {m m' : PreviewManager σ} {engine : PreviewEngine}
  {process process' : HelperProcess}

/-! ## One request -/

/-- Events reach nothing but the diagnostics and what is emitted. -/
theorem onEvent_eq (m : PreviewManager σ) (frame : Frame) :
    ∃ d e, onEvent env engine m frame = { m with diagnostics := d, emitted := e } := by
  unfold onEvent
  cases parseNativePreviewEvent env frame with
  | error line => exact ⟨_, _, rfl⟩
  | ok state =>
    by_cases hattached : m.attached = true
    · exact ⟨_, _, if_pos hattached⟩
    · exact ⟨m.diagnostics, m.emitted, if_neg hattached⟩

theorem onEvents_eq (frames : List Frame) (m : PreviewManager σ) :
    ∃ d e, frames.foldl (onEvent env engine) m = { m with diagnostics := d, emitted := e } := by
  induction frames generalizing m with
  | nil => exact ⟨m.diagnostics, m.emitted, rfl⟩
  | cons frame rest ih =>
    obtain ⟨d, e, hfirst⟩ := onEvent_eq m frame
    obtain ⟨d', e', hrest⟩ := ih { m with diagnostics := d, emitted := e }
    exact ⟨d', e', by rw [List.foldl_cons, hfirst, hrest]⟩

theorem recordDiagnostics_eq (lines : List String) (m : PreviewManager σ) :
    ∃ d, lines.foldl (fun m entry => m.recordDiagnostic engine entry) m = { m with diagnostics := d } := by
  induction lines generalizing m with
  | nil => exact ⟨m.diagnostics, rfl⟩
  | cons line rest ih => exact ih (m.recordDiagnostic engine line)

/-- What comes from a process goes to the log, and what has a number to the channel. -/
theorem deliver_eq (turn : Turn) : ∃ d e, ∃ outs : List Frame,
    (m.deliver env engine process turn).1 = { m with
      diagnostics := d, emitted := e, log := m.log ++ outs.map (Entry.output process.number) } ∧
    (m.deliver env engine process turn).2.number = process.number ∧
    ∀ f, .ok f ∈ (m.deliver env engine process turn).2.responses →
      .ok f ∈ process.responses ∨ (f ∈ outs ∧ f.requestId ≠ 0) := by
  unfold deliver
  by_cases hended : process.readerEnded = true
  · simp only [hended, if_true]
    exact ⟨m.diagnostics, m.emitted, [], by simp, trivial, fun f hf => Or.inl hf⟩
  · obtain ⟨d, e, hevents⟩ := @onEvents_eq _ env engine
      (turn.frames.filter fun frame => frame.requestId = 0) m
    simp only [hended, Bool.false_eq_true, if_false, hevents]
    refine ⟨d, e, turn.frames, rfl, trivial, fun f hf => ?_⟩
    rcases List.mem_append.1 hf with hold | hnew
    · exact Or.inl hold
    rcases List.mem_append.1 hnew with hframe | hending
    · obtain ⟨g, hg, heq⟩ := List.mem_map.1 hframe
      cases heq
      exact Or.inr (by simpa using List.mem_filter.1 hg)
    · obtain ⟨text, -, heq⟩ := List.mem_map.1 hending
      cases heq

theorem received_spec {expectedId : ℕ} {readerEnded : Bool} {responses rest : List (Except String Frame)}
    {result : Except String Frame}
    (h : received env expectedId readerEnded responses = (rest, result)) :
    (∀ f, f ∈ rest → f ∈ responses) ∧ ∀ response, result = .ok response →
      .ok response ∈ responses ∧ response.requestId = expectedId ∧
        response.kind ≠ MessageKind.error := by
  cases responses with
  | nil =>
    cases h
    exact ⟨fun f hf => hf, fun response hresponse => by cases hresponse⟩
  | cons first others =>
    cases first with
    | error text =>
      cases h
      exact ⟨fun f hf => List.mem_cons_of_mem _ hf, fun response hresponse => by cases hresponse⟩
    | ok frame =>
      obtain ⟨hrest, hresult⟩ := Prod.mk.inj h
      refine ⟨fun f hf => List.mem_cons_of_mem _ (hrest ▸ hf), fun response hresponse => ?_⟩
      rw [hresponse] at hresult
      by_cases hid : frame.requestId = expectedId
      · rw [if_neg (not_not.2 hid)] at hresult
        by_cases hkind : frame.kind = MessageKind.error
        · rw [if_pos hkind] at hresult
          cases htext : env.jsonText frame.json <;> rw [htext] at hresult <;> cases hresult
        · rw [if_neg hkind] at hresult
          cases hresult
          exact ⟨List.mem_cons_self, hid, hkind⟩
      · rw [if_pos hid] at hresult
        cases hresult

/-- The response to a request that was sent, and what is left in the channel, have come from the
process itself. -/
theorem request_cases {frame : Frame} {result : Except String Frame}
    (h : m.request env engine process frame = (m', process', result)) :
    (m' = m ∧ process' = process ∧ ∀ response, result ≠ .ok response) ∨
    ∃ d e, ∃ outs : List Frame, m' = { m with
        clock := m.clock + 1, diagnostics := d, emitted := e,
        log := m.log ++ Entry.sent process.number frame :: outs.map (Entry.output process.number) } ∧
      process'.number = process.number ∧
      (∀ f, .ok f ∈ process'.responses → .ok f ∈ process.responses ∨ (f ∈ outs ∧ f.requestId ≠ 0)) ∧
      ∀ response, result = .ok response →
        (.ok response ∈ process.responses ∨ (response ∈ outs ∧ response.requestId ≠ 0)) ∧
        response.requestId = frame.requestId ∧ response.kind ≠ MessageKind.error := by
  unfold request at h
  by_cases hlarge : frame.tooLarge = true
  · rw [if_pos hlarge] at h
    cases h
    exact Or.inl ⟨rfl, rfl, fun response hresponse => by cases hresponse⟩
  rw [if_neg hlarge] at h
  refine Or.inr ?_
  obtain ⟨d, e, outs, hm, hnumber, hchannel⟩ := deliver_eq
    (m := { m with clock := m.clock + 1, log := m.log ++ [Entry.sent process.number frame] })
    (env.turn m.clock)
  refine ⟨d, e, outs, ?_⟩
  rcases hdelivered : deliver env { m with
    clock := m.clock + 1, log := m.log ++ [Entry.sent process.number frame] } engine process
    (env.turn m.clock) with ⟨m₁, p₁⟩
  rw [hdelivered] at hm hnumber hchannel
  simp only [hdelivered] at h
  have hlog : m₁ = { m with
      clock := m.clock + 1, diagnostics := d, emitted := e,
      log := m.log ++ Entry.sent process.number frame :: outs.map (Entry.output process.number) } := by
    rw [show m₁ = _ from hm]
    simp
  cases hrefusal : (env.turn m.clock).refusal with
  | some error =>
    simp only [hrefusal] at h
    cases h
    exact ⟨hlog, hnumber, hchannel, fun response hresponse => by cases hresponse⟩
  | none =>
    simp only [hrefusal] at h
    cases hreceived : received env frame.requestId p₁.readerEnded p₁.responses with
    | mk rest outcome =>
      simp only [hreceived] at h
      cases h
      obtain ⟨hrest, hok⟩ := received_spec hreceived
      refine ⟨hlog, hnumber, fun f hf => hchannel f (hrest _ hf), fun response hresponse => ?_⟩
      obtain ⟨hmem, hid, hkind⟩ := hok response hresponse
      exact ⟨hchannel response hmem, hid, hkind⟩

/-! ## What is kept -/

@[simp] theorem setSlot_log (m : PreviewManager σ) (slot : EngineProcess) :
    (m.setSlot engine slot).log = m.log := by cases engine <;> rfl

@[simp] theorem setSlot_spawns (m : PreviewManager σ) (slot : EngineProcess) :
    (m.setSlot engine slot).spawns = m.spawns := by cases engine <;> rfl

@[simp] theorem setSlot_nextRequestId (m : PreviewManager σ) (slot : EngineProcess) :
    (m.setSlot engine slot).nextRequestId = m.nextRequestId := by cases engine <;> rfl

@[simp] theorem setSlot_idsTaken (m : PreviewManager σ) (slot : EngineProcess) :
    (m.setSlot engine slot).idsTaken = m.idsTaken := by cases engine <;> rfl

@[simp] theorem slot_setSlot (m : PreviewManager σ) (slot : EngineProcess) :
    (m.setSlot engine slot).slot engine = slot := by cases engine <;> rfl

theorem slot_setSlot_of_ne (m : PreviewManager σ) (slot : EngineProcess) {other : PreviewEngine}
    (hne : other ≠ engine) : (m.setSlot engine slot).slot other = m.slot other := by
  cases engine <;> cases other <;> first | rfl | exact absurd rfl hne

theorem sentOf_append (first second : List Entry) :
    sentOf (first ++ second) = sentOf first ++ sentOf second := List.filterMap_append

theorem sentOf_outputs (number : ℕ) (frames : List Frame) :
    sentOf (frames.map (Entry.output number)) = [] := by
  induction frames with
  | nil => rfl
  | cons frame rest ih => exact ih

theorem sentOf_sent (log : List Entry) (number : ℕ) (frame : Frame) (outs : List Frame) :
    sentOf (log ++ Entry.sent number frame :: outs.map (Entry.output number)) =
      sentOf log ++ [(number, frame)] := by
  rw [sentOf_append]
  congr 1
  change (number, frame) :: sentOf _ = _
  rw [sentOf_outputs]

/-- The processes that are not given up: those in the slots, and those that a call has in hand. -/
def Holds (hand : List HelperProcess) (m : PreviewManager σ) (process : HelperProcess) : Prop :=
  process ∈ hand ∨ ∃ engine, (m.slot engine).helper = some process

/-- What is in the channel of a process has been written by it. -/
structure Fits (m : PreviewManager σ) (process : HelperProcess) : Prop where
  started : process.number < m.spawns
  wrote : ∀ f, .ok f ∈ process.responses → Entry.output process.number f ∈ m.log ∧ f.requestId ≠ 0

/-- No request has the number that was taken last. -/
def Fresh (m : PreviewManager σ) : Prop :=
  m.idsTaken < 2 ^ 64 → ∀ e ∈ sentOf m.log, e.2.requestId < m.nextRequestId

/-- The invariant of a session. The numbers are in order until they start again. -/
structure Orderly (hand : List HelperProcess) (m : PreviewManager σ) : Prop where
  counted : m.idsTaken < 2 ^ 64 → m.nextRequestId = m.idsTaken
  rising : m.idsTaken < 2 ^ 64 → (sentOf m.log).Pairwise fun e f => e.2.requestId < f.2.requestId
  bounded : m.idsTaken < 2 ^ 64 → ∀ e ∈ sentOf m.log, e.2.requestId ≤ m.nextRequestId
  fits : ∀ process, Holds hand m process → Fits m process
  released : ∀ n < m.spawns, (∃ process, Holds hand m process ∧ process.number = n) ∨
    Entry.killed n ∈ m.log

variable {hand hand' : List HelperProcess}

theorem orderly_empty : Orderly [] (empty : PreviewManager σ) where
  counted := fun _ => rfl
  rising := fun _ => List.Pairwise.nil
  bounded := fun _ e he => absurd he List.not_mem_nil
  fits := fun process h => by
    rcases h with h | ⟨engine, h⟩
    · exact absurd h List.not_mem_nil
    · cases engine <;> cases h
  released := fun n hn => absurd hn (Nat.not_lt_zero n)

/-- The log of a session only grows. -/
theorem Fits.grow {process : HelperProcess} (h : Fits m process) (hspawns : m.spawns ≤ m'.spawns)
    (hlog : ∀ entry ∈ m.log, entry ∈ m'.log) : Fits m' process :=
  ⟨Nat.lt_of_lt_of_le h.started hspawns, fun f hf => ⟨hlog _ (h.wrote f hf).1, (h.wrote f hf).2⟩⟩

theorem Orderly.nextId (h : Orderly hand m) : Orderly hand m.nextId ∧ Fresh m.nextId := by
  have hnext : m.nextId.idsTaken < 2 ^ 64 → m.nextId.nextRequestId = m.nextRequestId + 1 ∧
      m.nextRequestId = m.idsTaken := by
    intro hlt
    change m.idsTaken + 1 < 2 ^ 64 at hlt
    have hcounted := h.counted (by omega)
    refine ⟨?_, hcounted⟩
    change max ((m.nextRequestId + 1) % 2 ^ 64) 1 = _
    rw [hcounted, Nat.mod_eq_of_lt hlt]
    omega
  have hfresh : m.nextId.idsTaken < 2 ^ 64 → ∀ e ∈ sentOf m.log, e.2.requestId < m.nextId.nextRequestId := by
    intro hlt e he
    have hle := h.bounded (Nat.lt_of_succ_lt hlt) e he
    rw [(hnext hlt).1]
    omega
  refine ⟨⟨?_, fun hlt => h.rising (Nat.lt_of_succ_lt hlt), ?_,
    fun p hp => ⟨(h.fits p hp).started, (h.fits p hp).wrote⟩, h.released⟩, hfresh⟩
  · intro hlt
    rw [(hnext hlt).1, (hnext hlt).2]
    rfl
  · exact fun hlt e he => Nat.le_of_lt (hfresh hlt e he)

/-- A process that is asked stays as it was to the others, and what it writes is in the log. -/
theorem Orderly.request (h : Orderly hand m) (hfresh : Fresh m) (hfits : Fits m process)
    {frame : Frame} (hid : frame.requestId = m.nextRequestId) {result : Except String Frame}
    (hrequest : m.request env engine process frame = (m', process', result)) :
    Orderly hand m' ∧ Fits m' process' ∧ process'.number = process.number := by
  rcases request_cases hrequest with ⟨rfl, rfl, -⟩ | ⟨d, e, outs, rfl, hnumber, hchannel, -⟩
  · exact ⟨h, hfits, rfl⟩
  have hgrows : ∀ entry ∈ m.log, entry ∈ m.log ++ Entry.sent process.number frame ::
      outs.map (Entry.output process.number) := fun entry he => List.mem_append_left _ he
  refine ⟨⟨h.counted, ?_, ?_, ?_, ?_⟩, ⟨hnumber ▸ hfits.started, ?_⟩, hnumber⟩
  · intro hlt
    rw [sentOf_sent, List.pairwise_append]
    refine ⟨h.rising hlt, List.pairwise_singleton _ _, fun a ha b hb => ?_⟩
    rw [List.mem_singleton.1 hb, hid]
    exact hfresh hlt a ha
  · intro hlt a ha
    rw [sentOf_sent] at ha
    rcases List.mem_append.1 ha with hold | hnew
    · exact h.bounded hlt a hold
    · rw [List.mem_singleton.1 hnew]
      exact Nat.le_of_eq hid
  · exact fun p hp => (h.fits p hp).grow (Nat.le_refl _) hgrows
  · intro n hn
    rcases h.released n hn with hheld | hkilled
    · exact Or.inl hheld
    · exact Or.inr (hgrows _ hkilled)
  · intro f hf
    rw [hnumber]
    rcases hchannel f hf with hold | ⟨hnew, hnonzero⟩
    · exact ⟨hgrows _ (hfits.wrote f hold).1, (hfits.wrote f hold).2⟩
    · refine ⟨List.mem_append_right _ (List.mem_cons_of_mem _ ?_), hnonzero⟩
      exact List.mem_map_of_mem (f := Entry.output process.number) hnew

theorem Orderly.kill (h : Orderly (process :: hand) m) :
    Orderly hand { m with log := m.log ++ [Entry.killed process.number] } := by
  have hsent : sentOf (m.log ++ [Entry.killed process.number]) = sentOf m.log := by
    rw [sentOf_append]
    exact List.append_nil _
  refine ⟨h.counted, fun hlt => by rw [hsent]; exact h.rising hlt,
    fun hlt => by rw [hsent]; exact h.bounded hlt, ?_, ?_⟩
  · intro p hp
    have hheld : Holds (process :: hand) m p := hp.imp_left (List.mem_cons_of_mem _)
    exact (h.fits p hheld).grow (Nat.le_refl _) fun entry he => List.mem_append_left _ he
  · intro n hn
    rcases h.released n hn with ⟨p, hp, hnumber⟩ | hkilled
    · rcases hp with hhand | hslot
      · rcases List.mem_cons.1 hhand with rfl | hrest
        · exact Or.inr (List.mem_append_right _ (by rw [hnumber]; exact List.mem_singleton.2 rfl))
        · exact Or.inl ⟨p, Or.inl hrest, hnumber⟩
      · exact Or.inl ⟨p, Or.inr hslot, hnumber⟩
    · exact Or.inr (List.mem_append_left _ hkilled)

/-- A process in hand may be known by what has become of it. -/
theorem Orderly.swap (h : Orderly (process :: hand) m) (hfits : Fits m process')
    (hnumber : process'.number = process.number) : Orderly (process' :: hand) m := by
  refine ⟨h.counted, h.rising, h.bounded, ?_, ?_⟩
  · intro p hp
    rcases hp with hhand | hslot
    · rcases List.mem_cons.1 hhand with rfl | hrest
      · exact hfits
      · exact h.fits p (Or.inl (List.mem_cons_of_mem _ hrest))
    · exact h.fits p (Or.inr hslot)
  · intro n hn
    rcases h.released n hn with ⟨p, hp, hpn⟩ | hkilled
    · rcases hp with hhand | hslot
      · rcases List.mem_cons.1 hhand with rfl | hrest
        · exact Or.inl ⟨process', Or.inl List.mem_cons_self, by rw [hnumber, hpn]⟩
        · exact Or.inl ⟨p, Or.inl (List.mem_cons_of_mem _ hrest), hpn⟩
      · exact Or.inl ⟨p, Or.inr hslot, hpn⟩
    · exact Or.inr hkilled

/-- What was in a slot is in hand once the slot is emptied. -/
theorem Orderly.empty_slot (h : Orderly hand m) (hslot : (m.slot engine).helper = some process) :
    Orderly (process :: hand) (m.setSlot engine ⟨none, none, none⟩) := by
  have hheld : ∀ p, Holds hand m p ↔ Holds (process :: hand) (m.setSlot engine ⟨none, none, none⟩) p ∨
      p = process := by
    intro p
    constructor
    · intro hp
      rcases hp with hhand | ⟨other, hother⟩
      · exact Or.inl (Or.inl (List.mem_cons_of_mem _ hhand))
      · by_cases hsame : other = engine
        · rw [hsame, hslot] at hother
          exact Or.inr (Option.some.inj hother).symm
        · exact Or.inl (Or.inr ⟨other, by rw [slot_setSlot_of_ne m _ hsame]; exact hother⟩)
    · intro hp
      rcases hp with (hhand | ⟨other, hother⟩) | rfl
      · rcases List.mem_cons.1 hhand with rfl | hrest
        · exact Or.inr ⟨engine, hslot⟩
        · exact Or.inl hrest
      · by_cases hsame : other = engine
        · rw [hsame, slot_setSlot] at hother
          cases hother
        · rw [slot_setSlot_of_ne m _ hsame] at hother
          exact Or.inr ⟨other, hother⟩
      · exact Or.inr ⟨engine, hslot⟩
  refine ⟨by simpa using h.counted, by simpa using h.rising, by simpa using h.bounded, ?_, ?_⟩
  · intro p hp
    exact (h.fits p ((hheld p).2 (Or.inl hp))).grow (by simp) (by simp)
  · intro n hn
    rw [setSlot_spawns] at hn
    rcases h.released n hn with ⟨p, hp, hpn⟩ | hkilled
    · rcases (hheld p).1 hp with hp | rfl
      · exact Or.inl ⟨p, hp, hpn⟩
      · exact Or.inl ⟨p, Or.inl List.mem_cons_self, hpn⟩
    · exact Or.inr (by rwa [setSlot_log])

/-- A process is put in a slot that held none, or the same process before. -/
theorem Orderly.fill_slot (h : Orderly hand m) (hfits : Fits m process)
    (hrest : ∀ p, Holds hand m p → p.number = process.number ∨
      (p ∈ hand' ∨ ∃ other, other ≠ engine ∧ (m.slot other).helper = some p))
    (hkept : ∀ p ∈ hand', Holds hand m p) {slot : EngineProcess} (hslot : slot.helper = some process) :
    Orderly hand' (m.setSlot engine slot) := by
  refine ⟨by simpa using h.counted, by simpa using h.rising, by simpa using h.bounded, ?_, ?_⟩
  · intro p hp
    have hfit : Fits m p := by
      rcases hp with hhand | ⟨other, hother⟩
      · exact h.fits p (hkept p hhand)
      · by_cases hsame : other = engine
        · rw [hsame, slot_setSlot, hslot] at hother
          rwa [← Option.some.inj hother]
        · rw [slot_setSlot_of_ne m _ hsame] at hother
          exact h.fits p (Or.inr ⟨other, hother⟩)
    exact hfit.grow (by simp) (by simp)
  · intro n hn
    rw [setSlot_spawns] at hn
    rcases h.released n hn with ⟨p, hp, hpn⟩ | hkilled
    · rcases hrest p hp with hsame | hhand | ⟨other, hne, hother⟩
      · exact Or.inl ⟨process, Or.inr ⟨engine, by rw [slot_setSlot, hslot]⟩, by rw [← hsame, hpn]⟩
      · exact Or.inl ⟨p, Or.inl hhand, hpn⟩
      · exact Or.inl ⟨p, Or.inr ⟨other, by rw [slot_setSlot_of_ne m _ hne]; exact hother⟩, hpn⟩
    · exact Or.inr (by rwa [setSlot_log])

/-! ## The calls -/

/-- Neither a greeting nor a shutdown, but a request for somebody who asked. -/
def isAttempt (e : ℕ × Frame) : Bool := e.2.kind ≠ MessageKind.hello && e.2.kind ≠ MessageKind.shutdown

/-- How many processes have been started, how many requests sent, and how many of these for somebody
who asked, at most. -/
structure Asks (starts requests attempts : ℕ) (m m' : PreviewManager σ) : Prop where
  starts : m'.spawns ≤ m.spawns + starts
  requests : (sentOf m'.log).length ≤ (sentOf m.log).length + requests
  attempts : (sentOf m'.log).countP isAttempt ≤ (sentOf m.log).countP isAttempt + attempts

theorem Asks.trans {m'' : PreviewManager σ} {a b c x y z : ℕ} (h : Asks a b c m m')
    (h' : Asks x y z m' m'') : Asks (a + x) (b + y) (c + z) m m'' :=
  ⟨by have := h.starts; have := h'.starts; omega, by have := h.requests; have := h'.requests; omega,
    by have := h.attempts; have := h'.attempts; omega⟩

theorem Asks.weaken {a b c x y z : ℕ} (h : Asks a b c m m') (hax : a ≤ x) (hby : b ≤ y) (hcz : c ≤ z) :
    Asks x y z m m' :=
  ⟨by have := h.starts; omega, by have := h.requests; omega, by have := h.attempts; omega⟩

/-- The requests are counted by the log alone. -/
theorem asks_of_sent {a b c : ℕ} (hspawns : m'.spawns ≤ m.spawns + a)
    (hsent : sentOf m'.log = sentOf m.log) : Asks a b c m m' :=
  ⟨hspawns, by rw [hsent]; omega, by rw [hsent]; omega⟩

/-- A request leaves the slots alone. -/
theorem asks_request {frame : Frame} {result : Except String Frame}
    (hrequest : m.request env engine process frame = (m', process', result)) :
    Asks 0 1 (if isAttempt (process.number, frame) then 1 else 0) m m' ∧ m'.slot = m.slot ∧
      m'.nextRequestId = m.nextRequestId := by
  rcases request_cases hrequest with ⟨rfl, -, -⟩ | ⟨d, e, outs, rfl, -, -, -⟩
  · exact ⟨asks_of_sent (Nat.le_refl _) rfl, rfl, rfl⟩
  · refine ⟨⟨Nat.le_refl _, ?_, ?_⟩, funext fun other => ?_, rfl⟩
    · simp only [sentOf_sent, List.length_append, List.length_singleton, Nat.le_refl]
    · simp only [sentOf_sent, List.countP_append, List.countP_singleton, Nat.le_refl]
    · cases other <;> rfl

theorem stopProcess_spec (h : Orderly (process :: hand) m) (hfresh : Fresh m) :
    Orderly hand (m.stopProcess env engine process m.nextRequestId) ∧
    Asks 0 1 0 m (m.stopProcess env engine process m.nextRequestId) ∧
    (m.stopProcess env engine process m.nextRequestId).slot = m.slot := by
  have hfits : Fits m process := h.fits process (Or.inl List.mem_cons_self)
  unfold stopProcess
  rcases hrequest : m.request env engine process ⟨MessageKind.shutdown, m.nextRequestId, [], []⟩
    with ⟨m₁, p₁, result⟩
  simp only
  obtain ⟨hkept, hfits₁, hnumber⟩ := h.request hfresh hfits rfl hrequest
  obtain ⟨hasks, hslot, -⟩ := asks_request hrequest
  have hended : Asks 0 0 0 m₁ { m₁ with log := m₁.log ++ [Entry.killed p₁.number] } :=
    asks_of_sent (Nat.le_refl _) ((sentOf_append _ _).trans (List.append_nil _))
  refine ⟨(hkept.swap hfits₁ hnumber).kill, hasks.trans hended, ?_⟩
  · rw [← hslot]
    funext other
    cases other <;> rfl

theorem abandon_spec {error : String} (h : Orderly (process :: hand) m) :
    Orderly hand (m.abandon env engine process error).1 ∧
    Asks 0 1 0 m (m.abandon env engine process error).1 ∧
    (m.abandon env engine process error).1.slot = m.slot := by
  obtain ⟨hkept, hfresh⟩ := h.nextId
  obtain ⟨hstopped, hasks, hslot⟩ := stopProcess_spec hkept hfresh
  refine ⟨hstopped, ⟨hasks.starts, hasks.requests, hasks.attempts⟩, hslot.trans ?_⟩
  funext other
  cases other <;> rfl

/-- The engine runs a helper for this installation. -/
def Runs (m : PreviewManager σ) (engine : PreviewEngine) (installRoot : String) : Prop :=
  (m.slot engine).installRoot = some installRoot ∧ ∃ process, (m.slot engine).helper = some process

theorem orderly_spawn (h : Orderly hand m) (clock : ℕ) :
    Orderly (⟨m.spawns, [], false, []⟩ :: hand) { m with
      clock := clock, spawns := m.spawns + 1, log := m.log ++ [Entry.spawned m.spawns] } := by
  have hsent : sentOf (m.log ++ [Entry.spawned m.spawns]) = sentOf m.log := by
    rw [sentOf_append]
    exact List.append_nil _
  refine ⟨h.counted, fun hlt => by rw [hsent]; exact h.rising hlt,
    fun hlt => by rw [hsent]; exact h.bounded hlt, ?_, ?_⟩
  · intro p hp
    rcases hp with hhand | hslot
    · rcases List.mem_cons.1 hhand with rfl | hrest
      · exact ⟨Nat.lt_succ_self _, fun f hf => absurd hf List.not_mem_nil⟩
      · exact (h.fits p (Or.inl hrest)).grow (Nat.le_succ _) fun entry he => List.mem_append_left _ he
    · exact (h.fits p (Or.inr hslot)).grow (Nat.le_succ _) fun entry he => List.mem_append_left _ he
  · intro n hn
    by_cases hnew : n = m.spawns
    · exact Or.inl ⟨_, Or.inl List.mem_cons_self, hnew.symm⟩
    · have hold : n < m.spawns := by
        change n < m.spawns + 1 at hn
        omega
      rcases h.released n hold with ⟨p, hp, hpn⟩ | hkilled
      · exact Or.inl ⟨p, hp.imp_left (List.mem_cons_of_mem _), hpn⟩
      · exact Or.inr (List.mem_append_left _ hkilled)

/-- The start of a helper, in a slot that is empty. -/
theorem start_spec {installRoot : String} {result : Except String Unit} (h : Orderly [] m)
    (hempty : (m.slot engine).helper = none) (hstart : m.start env installRoot engine = (m', result)) :
    Orderly [] m' ∧ Asks 1 2 0 m m' ∧
      (result = .ok () → Asks 1 1 0 m m' ∧ Runs m' engine installRoot) := by
  unfold start at hstart
  cases hspawn : env.spawn m.clock with
  | error text =>
    rw [hspawn] at hstart
    cases hstart
    exact ⟨⟨h.counted, h.rising, h.bounded, fun p hp => ⟨(h.fits p hp).started, (h.fits p hp).wrote⟩,
      h.released⟩, asks_of_sent (Nat.le_add_right _ _) rfl, fun hok => by cases hok⟩
  | ok started =>
    simp only [hspawn] at hstart
    have hspawned := orderly_spawn h (m.clock + 1)
    have hasked : Asks 1 0 0 m { m with
        clock := m.clock + 1, spawns := m.spawns + 1, log := m.log ++ [Entry.spawned m.spawns] } :=
      asks_of_sent (Nat.le_refl _) ((sentOf_append _ _).trans (List.append_nil _))
    have hslots : ∀ other, ({ m with
        clock := m.clock + 1, spawns := m.spawns + 1,
        log := m.log ++ [Entry.spawned m.spawns] } : PreviewManager σ).slot other = m.slot other := by
      intro other
      cases other <;> rfl
    generalize ({ m with
      clock := m.clock + 1, spawns := m.spawns + 1,
      log := m.log ++ [Entry.spawned m.spawns] } : PreviewManager σ) = m₀ at hstart hspawned hasked hslots
    obtain ⟨hnext, hfresh⟩ := hspawned.nextId
    have hnextSlots : ∀ other, m₀.nextId.slot other = m₀.slot other := fun other => by
      cases other <;> rfl
    rcases hrequest : m₀.nextId.request env engine ⟨m.spawns, [], false, []⟩
      ⟨MessageKind.hello, m₀.nextId.nextRequestId, helloJson, []⟩ with ⟨m₁, p₁, greeted⟩
    simp only [hrequest] at hstart
    obtain ⟨hkept, hfits, hnumber⟩ :=
      hnext.request hfresh (hnext.fits _ (Or.inl List.mem_cons_self)) rfl hrequest
    obtain ⟨hasks, hslot, -⟩ := asks_request hrequest
    have hhand := hkept.swap hfits hnumber
    have hgreeted : Asks 1 1 0 m m₁ := hasked.trans ⟨hasks.starts, hasks.requests, hasks.attempts⟩
    have hengine : (m₁.slot engine).helper = none := by
      rw [hslot, hnextSlots, hslots, hempty]
    have habandoned : ∀ error, m₁.abandon env engine p₁ error = (m', result) →
        Orderly [] m' ∧ Asks 1 2 0 m m' ∧
          (result = .ok () → Asks 1 1 0 m m' ∧ Runs m' engine installRoot) := by
      intro error heq
      obtain ⟨hstopped, hmore, -⟩ := abandon_spec hhand
      rw [heq] at hstopped hmore
      refine ⟨hstopped, hgreeted.trans hmore, fun hok => ?_⟩
      rw [hok] at heq
      cases congrArg Prod.snd heq
    cases greeted with
    | error text => exact habandoned text hstart
    | ok hello =>
      simp only at hstart
      by_cases hkind : hello.kind ≠ MessageKind.helloAck
      · rw [if_pos hkind] at hstart
        exact habandoned _ hstart
      rw [if_neg hkind] at hstart
      cases hmetadata : env.readHello hello.json with
      | error text =>
        simp only [hmetadata] at hstart
        exact habandoned text hstart
      | ok metadata =>
        simp only [hmetadata] at hstart
        by_cases hvalid : validHello engine metadata = true
        · rw [if_pos hvalid] at hstart
          cases hstart
          have hfilled : Asks 1 1 0 m
              (m₁.setSlot engine ⟨some p₁, some installRoot, some metadata.coreVersion⟩) :=
            hgreeted.trans (asks_of_sent (by simp) (by simp) : Asks 0 0 0 _ _)
          refine ⟨hhand.fill_slot hfits ?_ (fun p hp => absurd hp List.not_mem_nil) rfl, ?_, fun _ => ?_⟩
          -- the other slot keeps its process, and this one was empty
          · intro p hp
            rcases hp with hmem | ⟨other, hother⟩
            · rw [List.mem_singleton.1 hmem]
              exact Or.inl rfl
            · refine Or.inr (Or.inr ⟨other, fun hsame => ?_, hother⟩)
              rw [hsame, hengine] at hother
              cases hother
          · exact hfilled.weaken (Nat.le_refl _) (Nat.le_succ _) (Nat.le_refl _)
          · exact ⟨hfilled, by simp [Runs]⟩
        · rw [if_neg hvalid] at hstart
          exact habandoned _ hstart

/-- Whether there is a helper to stop. -/
def leftover (m : PreviewManager σ) (engine : PreviewEngine) : ℕ :=
  if (m.slot engine).helper.isSome then 1 else 0

theorem stopEngine_spec (h : Orderly [] m) :
    Orderly [] (m.stopEngine env engine) ∧ Asks 0 (leftover m engine) 0 m (m.stopEngine env engine) ∧
      ((m.stopEngine env engine).slot engine).helper = none := by
  obtain ⟨hnext, hfresh⟩ := h.nextId
  have hsame : m.nextId.slot engine = m.slot engine := by cases engine <;> rfl
  have hasked : ∀ m₁ : PreviewManager σ, Asks 0 1 0 m.nextId m₁ → Asks 0 1 0 m m₁ :=
    fun _ hasks => ⟨hasks.starts, hasks.requests, hasks.attempts⟩
  unfold stopEngine leftover
  cases hhelper : (m.slot engine).helper with
  | none =>
    simp only [hsame, hhelper]
    refine ⟨⟨by simpa using hnext.counted, by simpa using hnext.rising, by simpa using hnext.bounded,
      ?_, ?_⟩, asks_of_sent (by simp [nextId]) (by simp [nextId]), by simp⟩
    · intro p hp
      refine (hnext.fits p (hp.imp_right ?_)).grow (by simp) (by simp)
      rintro ⟨other, hother⟩
      by_cases hengine : other = engine
      · rw [hengine, slot_setSlot] at hother
        cases hother
      · rw [slot_setSlot_of_ne _ _ hengine] at hother
        exact ⟨other, hother⟩
    · intro n hn
      rw [setSlot_spawns] at hn
      rcases hnext.released n hn with ⟨p, hp, hpn⟩ | hkilled
      · refine Or.inl ⟨p, hp.imp_right ?_, hpn⟩
        rintro ⟨other, hother⟩
        have hengine : other ≠ engine := fun heq => by
          rw [heq, hsame, hhelper] at hother
          cases hother
        exact ⟨other, by rw [slot_setSlot_of_ne _ _ hengine]; exact hother⟩
      · exact Or.inr (by rwa [setSlot_log])
  | some process =>
    simp only [hsame, hhelper]
    have hempty := hnext.empty_slot (by rw [hsame, hhelper] : (m.nextId.slot engine).helper = some process)
    obtain ⟨d, hrecorded⟩ := recordDiagnostics_eq process.diagnostics
      (m.nextId.setSlot engine ⟨none, none, none⟩)
    rw [hrecorded]
    have hkept : Orderly [process] { m.nextId.setSlot engine ⟨none, none, none⟩ with diagnostics := d } :=
      ⟨hempty.counted, hempty.rising, hempty.bounded,
        fun p hp => ⟨(hempty.fits p hp).started, (hempty.fits p hp).wrote⟩, hempty.released⟩
    have hfreshRecorded : Fresh { m.nextId.setSlot engine ⟨none, none, none⟩ with diagnostics := d } := by
      intro hlt e he
      simp only [setSlot_idsTaken, setSlot_log, setSlot_nextRequestId] at hlt he ⊢
      exact hfresh hlt e he
    have hid : m.nextId.nextRequestId =
        ({ m.nextId.setSlot engine ⟨none, none, none⟩ with diagnostics := d } : PreviewManager σ).nextRequestId := by
      simp
    rw [hid]
    obtain ⟨hstopped, hasks, hslot⟩ := stopProcess_spec hkept hfreshRecorded
    refine ⟨hstopped, hasked _ ⟨?_, ?_, ?_⟩, ?_⟩
    · simpa using hasks.starts
    · simpa using hasks.requests
    · simpa using hasks.attempts
    · rw [hslot]
      exact congrArg EngineProcess.helper (slot_setSlot m.nextId ⟨none, none, none⟩)

theorem ensure_spec {installRoot : String} {result : Except String Unit} (h : Orderly [] m)
    (hensure : m.ensure env installRoot engine = (m', result)) :
    Orderly [] m' ∧ Asks 1 (leftover m engine + 2) 0 m m' ∧
      (result = .ok () → Asks 1 (leftover m engine + 1) 0 m m' ∧ Runs m' engine installRoot) ∧
      (Runs m engine installRoot → m' = m ∧ result = .ok ()) := by
  unfold ensure at hensure
  by_cases hneeded : (m.slot engine).installRoot ≠ some installRoot ∨ (m.slot engine).helper.isNone = true
  · simp only [if_pos hneeded] at hensure
    obtain ⟨hstopped, hasks, hempty⟩ := stopEngine_spec h
    obtain ⟨hkept, hmore, hok⟩ := start_spec hstopped hempty hensure
    refine ⟨hkept, (hasks.trans hmore).weaken (by omega) (Nat.le_refl _) (Nat.le_refl _), fun hresult => ?_, fun hruns => ?_⟩
    · exact ⟨(hasks.trans (hok hresult).1).weaken (by omega) (Nat.le_refl _) (Nat.le_refl _), (hok hresult).2⟩
    · exfalso
      obtain ⟨hroot, process, hhelper⟩ := hruns
      rcases hneeded with hother | hnone
      · exact hother hroot
      · rw [hhelper] at hnone
        cases hnone
  · simp only [if_neg hneeded] at hensure
    cases hensure
    rw [not_or, not_not] at hneeded
    have hruns : Runs m engine installRoot := by
      refine ⟨hneeded.1, ?_⟩
      cases hhelper : (m.slot engine).helper with
      | none => rw [hhelper] at hneeded; exact absurd rfl hneeded.2
      | some process => exact ⟨process, rfl⟩
    exact ⟨h, asks_of_sent (by omega) rfl, fun _ => ⟨asks_of_sent (by omega) rfl, hruns⟩,
      fun _ => ⟨rfl, rfl⟩⟩

/-- The response is to the last request, which is the one that was asked for, and comes from the
process that runs for the engine. -/
def Matched (m : PreviewManager σ) (installRoot : String) (engine : PreviewEngine) (kind : ℕ)
    (buildJson : ℕ → Except String Bytes) (response : Frame) : Prop :=
  ∃ process json, (m.slot engine).helper = some process ∧
    (m.slot engine).installRoot = some installRoot ∧
    buildJson m.nextRequestId = .ok json ∧
    (sentOf m.log).getLast? = some (process.number, ⟨kind, m.nextRequestId, json, []⟩) ∧
    Entry.output process.number response ∈ m.log ∧
    response.requestId = m.nextRequestId ∧ response.requestId ≠ 0 ∧
    response.kind ≠ MessageKind.error

/-- What a request to the helper in its slot leaves. -/
theorem asked_spec {installRoot : String} {kind : ℕ} {json : Bytes} {put : PreviewManager σ}
    {buildJson : ℕ → Except String Bytes} {result : Except String Frame} (h : Orderly [] m)
    (hroot : (m.slot engine).installRoot = some installRoot)
    (hhelper : (m.slot engine).helper = some process)
    (hjson : buildJson m.nextId.nextRequestId = .ok json)
    (hrequest : m.nextId.request env engine process ⟨kind, m.nextId.nextRequestId, json, []⟩ =
      (m', process', result))
    (hput : m'.setSlot engine { m.slot engine with helper := some process' } = put) :
    Orderly [] put ∧ Asks 0 1 1 m put ∧
      ∀ response, result = .ok response → Matched put installRoot engine kind buildJson response := by
  subst hput
  obtain ⟨hnext, hfresh⟩ := h.nextId
  have hslots : m.nextId.slot engine = m.slot engine := by cases engine <;> rfl
  have hfits : Fits m.nextId process := hnext.fits process (Or.inr ⟨engine, by rw [hslots, hhelper]⟩)
  obtain ⟨hkept, hfits', hnumber⟩ := hnext.request hfresh hfits rfl hrequest
  obtain ⟨hasked, hslot, hid⟩ := asks_request hrequest
  refine ⟨hkept.fill_slot hfits' ?_ (fun p hp => absurd hp List.not_mem_nil) rfl, ?_, ?_⟩
  -- the other slot keeps its process, and this one has the same number as before
  · intro p hp
    rcases hp with hmem | ⟨other, hother⟩
    · exact absurd hmem List.not_mem_nil
    · by_cases hsame : other = engine
      · rw [hsame, hslot, hslots, hhelper] at hother
        exact Or.inl (by rw [hnumber, Option.some.inj hother])
      · exact Or.inr (Or.inr ⟨other, hsame, hother⟩)
  · have hnextAsks : Asks 0 0 0 m m.nextId := asks_of_sent (Nat.le_refl _) rfl
    have hputAsks : Asks 0 0 0 m' (m'.setSlot engine { m.slot engine with helper := some process' }) :=
      asks_of_sent (by simp) (by simp)
    refine ((hnextAsks.trans hasked).trans hputAsks).weaken (by omega) (by omega) ?_
    split_ifs <;> omega
  · intro response hok
    rcases request_cases hrequest with ⟨-, -, hnot⟩ | ⟨d, e, outs, hm', -, -, hresponse⟩
    · exact absurd hok (hnot response)
    obtain ⟨hfrom, hmatches, hkind⟩ := hresponse response hok
    refine ⟨process', json, by simp, by simpa using hroot, ?_, ?_, ?_, ?_, ?_, hkind⟩
    · rw [setSlot_nextRequestId, hid, hjson]
    · rw [setSlot_log, setSlot_nextRequestId, hid, hm']
      change (sentOf (_ ++ _ :: _)).getLast? = _
      rw [sentOf_sent, List.getLast?_append, hnumber]
      rfl
    · rw [setSlot_log, hm', hnumber]
      rcases hfrom with hold | ⟨hnew, -⟩
      · exact List.mem_append_left _ (hfits.wrote response hold).1
      · exact List.mem_append_right _ (List.mem_cons_of_mem _
          (List.mem_map_of_mem (f := Entry.output process.number) hnew))
    · rw [setSlot_nextRequestId, hid]
      exact hmatches
    · exact hfrom.elim (fun hold => (hfits.wrote response hold).2) And.right

theorem attempts_cons {installRoot : String} {kind attempt : ℕ} {rest : List ℕ}
    {buildJson : ℕ → Except String Bytes} {result : Except String Frame} (h : Orderly [] m)
    (hattempts : m.attempts env installRoot engine kind buildJson (attempt :: rest) = (m', result)) :
    (Orderly [] m' ∧ Asks 1 (leftover m engine + 2) 1 m m' ∧ (Runs m engine installRoot → Asks 0 1 1 m m') ∧
      ∀ response, result = .ok response → Matched m' installRoot engine kind buildJson response) ∨
    (attempt = 0 ∧ ∃ m₁, Orderly [] m₁ ∧ Asks 1 (leftover m engine + 3) 1 m m₁ ∧
      (Runs m engine installRoot → Asks 0 2 1 m m₁) ∧ (m₁.slot engine).helper = none ∧
      m₁.attempts env installRoot engine kind buildJson rest = (m', result)) := by
  unfold attempts at hattempts
  rcases hensure : m.ensure env installRoot engine with ⟨m₀, ensured⟩
  obtain ⟨hkept, hasks, hok, hrunning⟩ := ensure_spec h hensure
  simp only [hensure] at hattempts
  cases ensured with
  | error text =>
    cases hattempts
    refine Or.inl ⟨hkept, hasks.weaken (by omega) (by omega) (by omega), fun hruns => ?_, fun response hresponse => by cases hresponse⟩
    cases (hrunning hruns).2
  | ok started =>
    simp only at hattempts
    obtain ⟨hstarted, hroot, process, hhelper⟩ := hok rfl
    have hstill : Runs m engine installRoot → Asks 0 0 0 m m₀ := fun hruns => by
      rw [(hrunning hruns).1]
      exact asks_of_sent (Nat.le_refl _) rfl
    have hslots : m₀.nextId.slot engine = m₀.slot engine := by cases engine <;> rfl
    cases hjson : buildJson m₀.nextId.nextRequestId with
    | error text =>
      simp only [hjson] at hattempts
      cases hattempts
      have hasksNext : Asks 0 0 0 m₀ m₀.nextId := asks_of_sent (Nat.le_refl _) rfl
      refine Or.inl ⟨hkept.nextId.1, (hstarted.trans hasksNext).weaken (by omega) (by omega) (by omega),
        fun hruns => ?_, fun response hresponse => by cases hresponse⟩
      exact ((hstill hruns).trans hasksNext).weaken (by omega) (by omega) (by omega)
    | ok json =>
      simp only [hjson, hslots, hhelper] at hattempts
      rcases hrequest : m₀.nextId.request env engine process ⟨kind, m₀.nextId.nextRequestId, json, []⟩
        with ⟨m₁, process', response'⟩
      simp only [hrequest] at hattempts
      generalize hput : m₁.setSlot engine { m₀.slot engine with helper := some process' } = put
        at hattempts
      obtain ⟨hkept₁, hasked, hmatched⟩ := asked_spec hkept hroot hhelper hjson hrequest hput
      have hall : Asks 1 (leftover m engine + 2) 1 m put :=
        (hstarted.trans hasked).weaken (by omega) (by omega) (by omega)
      have hfew : Runs m engine installRoot → Asks 0 1 1 m put := fun hruns =>
        ((hstill hruns).trans hasked).weaken (by omega) (by omega) (by omega)
      cases response' with
      | ok response =>
        simp only at hattempts
        cases hattempts
        exact Or.inl ⟨hkept₁, hall, hfew, hmatched⟩
      | error text =>
        simp only at hattempts
        by_cases hfirst : attempt = 0
        · rw [if_pos hfirst] at hattempts
          generalize hstopped : put.recordDiagnostic engine
            ("helper restart after request failure: " ++ text) = m₂ at hattempts
          have hkept₂ : Orderly [] m₂ := by
            rw [← hstopped]
            exact ⟨hkept₁.counted, hkept₁.rising, hkept₁.bounded,
              fun p hp => ⟨(hkept₁.fits p hp).started, (hkept₁.fits p hp).wrote⟩, hkept₁.released⟩
          have hrecorded : Asks 0 0 0 put m₂ := hstopped ▸ asks_of_sent (Nat.le_refl _) rfl
          obtain ⟨hkept₃, hasks₃, hempty⟩ := stopEngine_spec hkept₂
          have hleft : leftover m₂ engine ≤ 1 := by
            unfold leftover
            split_ifs <;> omega
          have hmore := hrecorded.trans hasks₃
          refine Or.inr ⟨hfirst, _, hkept₃, (hall.trans hmore).weaken (by omega) (by omega) (by omega),
            fun hruns => ?_, hempty, hattempts⟩
          exact ((hfew hruns).trans hmore).weaken (by omega) (by omega) (by omega)
        · rw [if_neg hfirst] at hattempts
          cases hattempts
          exact Or.inl ⟨hkept₁, hall, hfew, fun response hresponse => by cases hresponse⟩

theorem requestBuilt_spec {installRoot : String} {kind : ℕ} {buildJson : ℕ → Except String Bytes}
    {result : Except String Frame} (h : Orderly [] m)
    (hbuilt : m.requestBuilt env installRoot engine kind buildJson = (m', result)) :
    Orderly [] m' ∧ Asks 2 (leftover m engine + 5) 2 m m' ∧ (Runs m engine installRoot → Asks 1 4 2 m m') ∧
      ∀ response, result = .ok response → Matched m' installRoot engine kind buildJson response := by
  rcases attempts_cons h hbuilt with ⟨hkept, hasks, hrunning, hok⟩ | ⟨-, m₁, hkept, hasks, hrunning, hempty, hrest⟩
  · exact ⟨hkept, hasks.weaken (by omega) (by omega) (by omega),
      fun hruns => (hrunning hruns).weaken (by omega) (by omega) (by omega), hok⟩
  rcases attempts_cons hkept hrest with ⟨hkept', hasks', -, hok⟩ | ⟨hfirst, -⟩
  · have hnone : leftover m₁ engine = 0 := by simp [leftover, hempty]
    rw [hnone] at hasks'
    exact ⟨hkept', (hasks.trans hasks').weaken (by omega) (by omega) (by omega),
      fun hruns => ((hrunning hruns).trans hasks').weaken (by omega) (by omega) (by omega), hok⟩
  · cases hfirst

theorem orderly_probe {installRoot : String} (h : Orderly [] m) :
    Orderly [] (m.probeCoreVersion env installRoot).1 := by
  unfold probeCoreVersion
  rcases hensure : m.ensure env installRoot .mactype with ⟨m₀, ensured⟩
  have hkept := (ensure_spec h hensure).1
  cases ensured with
  | error text => exact hkept
  | ok started =>
    cases hversion : m₀.mactype.coreVersion <;> simp only [hversion] <;> exact hkept

theorem orderly_answer (h : Orderly [] m) (call : Call) : Orderly [] (m.answer env call) := by
  cases call with
  | requestBuilt installRoot engine kind buildJson => exact (requestBuilt_spec h rfl).1
  | probeCoreVersion installRoot => exact orderly_probe h
  | reconnect installRoot => exact orderly_probe (stopEngine_spec h).1
  | stopEngine engine => exact (stopEngine_spec h).1
  | attachApp =>
    exact ⟨h.counted, h.rising, h.bounded, fun p hp => ⟨(h.fits p hp).started, (h.fits p hp).wrote⟩,
      h.released⟩
  | forceTerminateForCi =>
    unfold answer forceTerminateForCi
    cases m.mactype.helper with
    | none => exact h
    -- the process is ended, and stays in its slot until the next request fails
    | some process =>
      have hsent : sentOf (m.log ++ [Entry.killed process.number]) = sentOf m.log := by
        rw [sentOf_append]
        exact List.append_nil _
      refine ⟨h.counted, fun hlt => by rw [hsent]; exact h.rising hlt,
        fun hlt => by rw [hsent]; exact h.bounded hlt, fun p hp => ?_, fun n hn => ?_⟩
      · exact (h.fits p hp).grow (Nat.le_refl _) fun entry he => List.mem_append_left _ he
      · exact (h.released n hn).imp_right (List.mem_append_left _)

theorem orderly_session (calls : List Call) : Orderly [] ((empty : PreviewManager σ).session env calls) := by
  have hall : ∀ m : PreviewManager σ, Orderly [] m → Orderly [] (m.session env calls) := by
    induction calls with
    | nil => exact fun m h => h
    | cons call rest ih => exact fun m h => ih _ (orderly_answer h call)
  exact hall _ orderly_empty

/-- In every session and whatever the processes do, a call starts at most two helpers and sends at
most six requests, of which at most two are its attempts and the others greetings and shutdowns. With
a helper that runs it starts at most one more and sends at most four. What it returns is numbered as
the last request, is no error, and was written by the process to which this request went. A process
that has been started is in one of the two slots or was told to end. -/
theorem requestBuilt_bounded_and_matched {calls : List Call} {installRoot : String} {kind : ℕ}
    {buildJson : ℕ → Except String Bytes} {result : Except String Frame}
    (hm : (empty : PreviewManager σ).session env calls = m)
    (hbuilt : m.requestBuilt env installRoot engine kind buildJson = (m', result)) :
    Asks 2 6 2 m m' ∧ (Runs m engine installRoot → Asks 1 4 2 m m') ∧
      (∀ response, result = .ok response → Matched m' installRoot engine kind buildJson response) ∧
      ∀ n < m'.spawns, (∃ slot process, (m'.slot slot).helper = some process ∧ process.number = n) ∨
        Entry.killed n ∈ m'.log := by
  have hkept : Orderly [] m := hm ▸ orderly_session calls
  obtain ⟨hkept', hasks, hrunning, hok⟩ := requestBuilt_spec hkept hbuilt
  have hleft : leftover m engine ≤ 1 := by
    unfold leftover
    split_ifs <;> omega
  refine ⟨hasks.weaken (Nat.le_refl _) (by omega) (Nat.le_refl _), hrunning, hok, fun n hn => ?_⟩
  rcases hkept'.released n hn with ⟨process, hheld, hnumber⟩ | hkilled
  · rcases hheld with hhand | ⟨slot, hslot⟩
    · exact absurd hhand List.not_mem_nil
    · exact Or.inl ⟨slot, process, hslot, hnumber⟩
  · exact Or.inr hkilled

/-! ## The manager and its helpers together -/

/-- A process of the preview helper: its runtime, and the run of its two threads so far. -/
structure HelperRun where
  State : Type
  runtime : Runtime State
  initial : State
  actions : List (Action State)
  helper : Helper State
  ran : (Helper.start initial).run runtime actions = some helper

/-- The process with this number is the helper: what the helper has received was sent to the process,
and what is read from the process is among what the helper has written. -/
structure ServedBy (run : HelperRun) (n : ℕ) (log : List Entry) : Prop where
  received : ∀ request ∈ run.helper.arrived, (n, request) ∈ sentOf log
  written : ∀ f, Entry.output n f ∈ log →
    Written.event f ∈ run.helper.output ∨ ∃ k, Written.answer k f ∈ run.helper.output

/-- With rising numbers a request is known by its number. -/
theorem eq_of_requestId {log : List Entry}
    (hrising : (sentOf log).Pairwise fun e f => e.2.requestId < f.2.requestId) {e f : ℕ × Frame}
    (he : e ∈ sentOf log) (hf : f ∈ sentOf log) (hid : e.2.requestId = f.2.requestId) : e = f := by
  by_contra hne
  rcases List.pairwise_iff_getElem.1 hrising with hlt
  obtain ⟨i, hi, rfl⟩ := List.getElem_of_mem he
  obtain ⟨j, hj, rfl⟩ := List.getElem_of_mem hf
  rcases Nat.lt_trichotomy i j with h | h | h
  · exact absurd hid (Nat.ne_of_lt (hlt i j hi hj h))
  · subst h
    exact hne rfl
  · exact absurd hid.symm (Nat.ne_of_lt (hlt j i hj hi h))

/-- In every session with processes that are helpers, in every order of the steps of their threads
and however late they answer, a call that returns a frame returns what the helper to which the last
request went has computed from this very request: no response to an earlier request and no event is
taken for it. -/
theorem requestBuilt_no_stale_response {calls : List Call} {installRoot : String} {kind : ℕ}
    {buildJson : ℕ → Except String Bytes} {response : Frame}
    (hm : (empty : PreviewManager σ).session env calls = m)
    (hbuilt : m.requestBuilt env installRoot engine kind buildJson = (m', .ok response))
    {helpers : ℕ → HelperRun} (hserved : ∀ n, ServedBy (helpers n) n m'.log)
    (hids : m'.idsTaken < 2 ^ 64) :
    ∃ n json k, (sentOf m'.log).getLast? = some (n, ⟨kind, m'.nextRequestId, json, []⟩) ∧
      buildJson m'.nextRequestId = .ok json ∧
      (helpers n).helper.arrived[k]? = some ⟨kind, m'.nextRequestId, json, []⟩ ∧
      Helper.Computed (helpers n).runtime (helpers n).initial (helpers n).actions k
        ⟨kind, m'.nextRequestId, json, []⟩ response ∧
      response.kind = answerKind kind := by
  have hkept : Orderly [] m := hm ▸ orderly_session calls
  obtain ⟨hkept', -, -, hok⟩ := requestBuilt_spec hkept hbuilt
  obtain ⟨process, json, -, -, hjson, hlast, hwritten, hid, hnonzero, hkind⟩ := hok response rfl
  have served := hserved process.number
  rcases served.written response hwritten with hevent | ⟨k, hanswer⟩
  · exact absurd (Helper.event_unnumbered (helpers process.number).ran hevent) hnonzero
  obtain ⟨request, harrived, hcomputed⟩ :=
    Helper.answer_computed (helpers process.number).ran (Or.inl hanswer)
  -- the helper has answered a request of this number, and only the last one has it
  have hsame : (process.number, request) =
      (process.number, (⟨kind, m'.nextRequestId, json, []⟩ : Frame)) := by
    refine eq_of_requestId (hkept'.rising hids)
      (served.received request (List.mem_of_getElem? harrived)) (List.mem_of_getLast? hlast) ?_
    change request.requestId = m'.nextRequestId
    rw [← hcomputed.responds.1, hid]
  rw [Prod.mk.inj hsame |>.2] at harrived hcomputed
  exact ⟨process.number, json, k, hlast, hjson, harrived, hcomputed,
    hcomputed.responds.2.resolve_right hkind⟩

/-- The first helper answers a render request only when it is told to shut down. -/
def lateReply : Surroundings Unit where
  spawn := fun _ => .ok ()
  kill := fun _ => .ok ()
  turn := fun clock => ⟨none,
    if clock = 1 then [⟨MessageKind.helloAck, 2, [], []⟩]
    else if clock = 3 then [⟨MessageKind.previewRendered, 3, [], []⟩]
    else if clock = 5 then [⟨MessageKind.helloAck, 6, [], []⟩]
    else if clock = 6 then [⟨MessageKind.previewRendered, 7, [], []⟩]
    else [], none, []⟩
  readHello := fun _ => .ok ⟨1, true, 1⟩
  readState := fun _ => .ok ()
  jsonText := fun _ => .ok ""

def afterLateReply : PreviewManager Unit :=
  ((empty : PreviewManager Unit).requestBuilt lateReply "C:" .mactype MessageKind.renderPreview
    fun _ => .ok []).1

theorem requestBuilt_late_reply :
    (empty : PreviewManager Unit).requestBuilt lateReply "C:" .mactype MessageKind.renderPreview
        (fun _ => .ok []) = (afterLateReply, .ok ⟨MessageKind.previewRendered, 7, [], []⟩) := rfl

theorem requestBuilt_bounded_and_matched_late_reply :
    Asks 2 6 2 (empty : PreviewManager Unit) afterLateReply ∧
      Matched afterLateReply "C:" .mactype MessageKind.renderPreview (fun _ => .ok [])
        ⟨MessageKind.previewRendered, 7, [], []⟩ := by
  have hlaw := requestBuilt_bounded_and_matched
    (rfl : (empty : PreviewManager Unit).session lateReply [] = empty) requestBuilt_late_reply
  exact ⟨hlaw.1, hlaw.2.2.1 _ rfl⟩

/-- A helper that greets and then renders once. -/
def greetThenRender (hello render : ℕ) : List (Action Unit) :=
  [.receive ⟨MessageKind.hello, hello, helloJson, []⟩, .signal, .wake, .take, .handle, .reply,
    .receive ⟨MessageKind.renderPreview, render, [], []⟩, .take, .handle, .reply]

/-- The two helpers of the session, and none behind them. -/
def lateHelpers : ℕ → HelperRun
  | 0 => ⟨Unit, Helper.quietRuntime, (), greetThenRender 2 3, _, rfl⟩
  | 1 => ⟨Unit, Helper.quietRuntime, (), greetThenRender 6 7, _, rfl⟩
  | _ => ⟨Unit, Helper.quietRuntime, (), [], _, rfl⟩

/-- A helper that has greeted, and has answered the render request it was sent. -/
theorem servedBy_pair {run : HelperRun} {n : ℕ} {log : List Entry} (hello render : ℕ)
    (harrived : run.helper.arrived =
      [⟨MessageKind.hello, hello, helloJson, []⟩, ⟨MessageKind.renderPreview, render, [], []⟩])
    (houtput : run.helper.output = [.answer 0 ⟨MessageKind.helloAck, hello, [], []⟩,
      .answer 1 ⟨MessageKind.previewRendered, render, [], []⟩])
    (hsent : (n, ⟨MessageKind.hello, hello, helloJson, []⟩) ∈ sentOf log ∧
      (n, ⟨MessageKind.renderPreview, render, [], []⟩) ∈ sentOf log)
    (hlog : ∀ f, Entry.output n f ∈ log → f = ⟨MessageKind.helloAck, hello, [], []⟩ ∨
      f = ⟨MessageKind.previewRendered, render, [], []⟩) : ServedBy run n log := by
  refine ⟨fun request hrequest => ?_, fun f hf => ?_⟩
  · rw [harrived] at hrequest
    rcases List.mem_pair.1 hrequest with rfl | rfl
    · exact hsent.1
    · exact hsent.2
  · rw [houtput]
    rcases hlog f hf with rfl | rfl
    · exact Or.inr ⟨0, List.mem_cons_self⟩
    · exact Or.inr ⟨1, List.mem_cons_of_mem _ List.mem_cons_self⟩

theorem served_late_reply (n : ℕ) : ServedBy (lateHelpers n) n afterLateReply.log := by
  have hlog : afterLateReply.log = [.spawned 0, .sent 0 ⟨MessageKind.hello, 2, helloJson, []⟩,
      .output 0 ⟨MessageKind.helloAck, 2, [], []⟩, .sent 0 ⟨MessageKind.renderPreview, 3, [], []⟩,
      .sent 0 ⟨MessageKind.shutdown, 4, [], []⟩, .output 0 ⟨MessageKind.previewRendered, 3, [], []⟩,
      .killed 0, .spawned 1, .sent 1 ⟨MessageKind.hello, 6, helloJson, []⟩,
      .output 1 ⟨MessageKind.helloAck, 6, [], []⟩, .sent 1 ⟨MessageKind.renderPreview, 7, [], []⟩,
      .output 1 ⟨MessageKind.previewRendered, 7, [], []⟩] := rfl
  rw [hlog]
  match n with
  | 0 => exact servedBy_pair 2 3 rfl rfl (by simp [sentOf, Entry.sent?]) (by simp)
  | 1 => exact servedBy_pair 6 7 rfl rfl (by simp [sentOf, Entry.sent?]) (by simp)
  | n + 2 => exact ⟨fun request hrequest => absurd hrequest List.not_mem_nil, fun f hf => by simp at hf⟩

theorem requestBuilt_no_stale_response_late_reply : ∃ k,
    (lateHelpers 1).helper.arrived[k]? = some ⟨MessageKind.renderPreview, 7, [], []⟩ ∧
    Helper.Computed Helper.quietRuntime () (greetThenRender 6 7) k
      ⟨MessageKind.renderPreview, 7, [], []⟩ ⟨MessageKind.previewRendered, 7, [], []⟩ := by
  obtain ⟨n, json, k, hlast, hjson, harrived, hcomputed, -⟩ := requestBuilt_no_stale_response
    (rfl : (empty : PreviewManager Unit).session lateReply [] = empty) requestBuilt_late_reply
    served_late_reply (by decide)
  cases hjson
  cases hlast
  exact ⟨k, harrived, hcomputed⟩

end PreviewManager

end MacTypeControl.Preview
