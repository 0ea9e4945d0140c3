import MacTypeControl.Broker.TransferPipe

/-!
# What a receiving loop returns

However the pipe splits the bytes, the loop returns what was sent in one whole frame, or an error.
-/

namespace MacTypeControl.Broker.Transfer

open Format

/-- The length of the frame that starts with these bytes. -/
def announcedLength (bytes : List UInt8) : ℕ := headerBytes + payloadLength bytes

theorem payloadLength_append {frame : List UInt8} (h : 12 ≤ frame.length) (more : List UInt8) :
    payloadLength (frame ++ more) = payloadLength frame := by
  have hfield : 4 ≤ (frame.drop 8).length := by
    rw [List.length_drop]
    omega
  unfold payloadLength
  rw [List.drop_append_of_le_length (by omega), List.take_append_of_le_length hfield]

namespace Receiver

/-- A read of the loop asks for no more than is left of the frame, once its length is known. -/
def Within (receiver : Receiver) (sent : List UInt8) (call : ReadCall) : Prop :=
  call.got ≤ call.asked ∧ call.asked ≤ receiver.chunk ∧
    match call.announced with
    | none => call.received < 12 ∧ call.received + call.asked ≤ headerBytes + receiver.format.maximum
    | some total => total = announcedLength sent ∧ call.received + call.asked ≤ total

/-- What the loop knows before a read. -/
def Known (receiver : Receiver) (frame : List UInt8) : (expectedTotal : Option ℕ) → Prop
  | none => frame.length < 12
  | some total => 12 ≤ frame.length ∧ frame.length < total ∧ total = announcedLength frame ∧
      payloadLength frame ≤ receiver.format.maximum

section

variable {receiver : Receiver} {α : Type} {decode : List UInt8 → Except String α}
  {frame chunk left : List UInt8} {expectedTotal : Option ℕ}

/-- The total that the frame can have at most. -/
def limit (receiver : Receiver) (expectedTotal : Option ℕ) : ℕ :=
  expectedTotal.getD (headerBytes + receiver.format.maximum)

theorem Known.lt_limit (h : receiver.Known frame expectedTotal) :
    frame.length < receiver.limit expectedTotal := by
  cases expectedTotal with
  | none =>
    have hshort : frame.length < 12 := h
    show frame.length < 60 + receiver.format.maximum
    omega
  | some total => exact h.2.1

theorem announce_cases (h : receiver.Known frame expectedTotal) (chunk : List UInt8) :
    (∃ error, receiver.format.announce expectedTotal (frame ++ chunk) = .error error) ∨
    (receiver.format.announce expectedTotal (frame ++ chunk) = .ok none ∧ expectedTotal = none ∧
      (frame ++ chunk).length < 12) ∨
    ∃ total, receiver.format.announce expectedTotal (frame ++ chunk) = .ok (some total) ∧
      12 ≤ (frame ++ chunk).length ∧ total = announcedLength (frame ++ chunk) ∧
      payloadLength (frame ++ chunk) ≤ receiver.format.maximum ∧
      total ≤ receiver.limit expectedTotal := by
  cases expectedTotal with
  | none =>
    by_cases hshort : (frame ++ chunk).length < 12
    · refine Or.inr (Or.inl ⟨?_, rfl, hshort⟩)
      exact if_neg fun hboth => absurd hboth.2 (not_le.2 hshort)
    · have hlong : 12 ≤ (frame ++ chunk).length := not_lt.1 hshort
      unfold Format.announce
      rw [if_pos ⟨rfl, hlong⟩]
      by_cases hstarts : receiver.format.Starts (frame ++ chunk)
      · rw [if_neg (not_not.2 hstarts)]
        dsimp only
        split_ifs with hrange
        · exact Or.inl ⟨_, rfl⟩
        · rw [not_or, not_lt] at hrange
          refine Or.inr (Or.inr ⟨_, rfl, hlong, rfl, hrange.2, ?_⟩)
          exact Nat.add_le_add_left hrange.2 _
      · rw [if_pos hstarts]
        exact Or.inl ⟨_, rfl⟩
  | some total =>
    obtain ⟨hlong, -, htotal, hmaximum⟩ := h
    have hsame := payloadLength_append hlong chunk
    refine Or.inr (Or.inr ⟨total, if_neg (by simp), ?_, ?_, hsame ▸ hmaximum, le_refl _⟩)
    · rw [List.length_append]
      omega
    · rw [announcedLength, hsame]
      exact htotal

/-- After a read the loop ends with an error or with a whole frame, or it knows as much as before. -/
theorem afterRead_cases (h : receiver.Known frame expectedTotal) (chunk : List UInt8) :
    (∃ error, receiver.afterRead decode (frame ++ chunk) expectedTotal = .ended (.failed error)) ∨
    (∃ value, receiver.afterRead decode (frame ++ chunk) expectedTotal = .ended (.returned value) ∧
      decode (frame ++ chunk) = .ok value ∧ 12 ≤ (frame ++ chunk).length ∧
      (frame ++ chunk).length = announcedLength (frame ++ chunk)) ∨
    ∃ expectedTotal', receiver.afterRead decode (frame ++ chunk) expectedTotal =
        .more expectedTotal' ∧ receiver.Known (frame ++ chunk) expectedTotal' ∧
      receiver.limit expectedTotal' ≤ receiver.limit expectedTotal := by
  unfold afterRead
  rcases announce_cases h chunk with
    ⟨error, hannounce⟩ | ⟨hannounce, rfl, hshort⟩ |
      ⟨total, hannounce, hlong, htotal, hmaximum, hlimit⟩
  · rw [hannounce]
    exact Or.inl ⟨error, rfl⟩
  · rw [hannounce]
    exact Or.inr (Or.inr ⟨none, rfl, hshort, le_refl _⟩)
  · rw [hannounce]
    rcases lt_trichotomy (frame ++ chunk).length total with hless | hwhole | hmore
    · refine Or.inr (Or.inr ⟨some total, ?_, ⟨hlong, hless, htotal, hmaximum⟩, hlimit⟩)
      have hnot : ¬total < (frame ++ chunk).length := by omega
      simp only [Option.any_some, decide_eq_true_iff, Option.some.injEq]
      rw [if_neg hnot, if_neg (by omega)]
    · have hnot : ¬total < (frame ++ chunk).length := by omega
      simp only [Option.any_some, decide_eq_true_iff, Option.some.injEq]
      rw [if_neg hnot, if_pos hwhole.symm]
      cases hdecode : decode (frame ++ chunk) with
      | error error => exact Or.inl ⟨error, rfl⟩
      | ok value => exact Or.inr (Or.inl ⟨value, rfl, rfl, hlong, hwhole.trans htotal⟩)
    · refine Or.inl ⟨receiver.trailing, if_pos ?_⟩
      simpa using hmore

theorem remaining_eq (h : receiver.Known frame expectedTotal) :
    ∃ rest, receiver.limit expectedTotal - frame.length = rest + 1 ∧
      receiver.format.remaining expectedTotal frame.length = some (rest + 1) := by
  have hlimit := h.lt_limit
  obtain ⟨rest, hrest⟩ : ∃ rest, receiver.limit expectedTotal - frame.length = rest + 1 :=
    ⟨receiver.limit expectedTotal - frame.length - 1, by omega⟩
  refine ⟨rest, hrest, ?_⟩
  rw [← hrest]
  exact if_pos hlimit.le

/-- A read that gets something. -/
theorem receiveFrom_ok (h : receiver.Known frame expectedTotal)
    (reads : List (Except PipeError ℕ)) {count : ℕ}
    (hchunk : left.take (min count
      (min (receiver.limit expectedTotal - frame.length) receiver.chunk)) = chunk)
    (hsome : chunk ≠ []) :
    let call : ReadCall := ⟨frame.length, expectedTotal,
      min (receiver.limit expectedTotal - frame.length) receiver.chunk, chunk.length⟩
    receiver.receiveFrom decode (.ok count :: reads) frame expectedTotal left =
      match receiver.afterRead decode (frame ++ chunk) expectedTotal with
      | .ended outcome => ⟨[call], outcome⟩
      | .more expectedTotal =>
        let later := receiver.receiveFrom decode reads (frame ++ chunk) expectedTotal
          (left.drop chunk.length)
        ⟨call :: later.calls, later.outcome⟩ := by
  obtain ⟨rest, hrest, hremaining⟩ := remaining_eq h
  have hbytes : chunk.isEmpty = false := by simpa using hsome
  rw [hrest] at hchunk ⊢
  rw [receiveFrom, hremaining]
  cases hafter : receiver.afterRead decode (frame ++ chunk) expectedTotal with
  | ended outcome => simp only [hchunk, hbytes, hafter, Bool.false_eq_true, if_false]
  | more total => simp only [hchunk, hbytes, hafter, Bool.false_eq_true, if_false]

/-- A round of the loop makes one read. It ends with an error, or it gets a piece of what was sent
and ends with a whole frame or goes on. -/
theorem receiveFrom_cases (h : receiver.Known frame expectedTotal)
    (reads : List (Except PipeError ℕ)) (left : List UInt8) :
    let run := receiver.receiveFrom decode reads frame expectedTotal left
    ∃ call : ReadCall, (call.received = frame.length ∧ call.announced = expectedTotal ∧
      call.asked = min (receiver.limit expectedTotal - frame.length) receiver.chunk ∧
      call.got ≤ call.asked) ∧
    ((∃ error, run = ⟨[call], .failed error⟩) ∨
    ∃ chunk rest, left = chunk ++ rest ∧ chunk.length = call.got ∧ 0 < call.got ∧
      ((∃ value, run = ⟨[call], .returned value⟩ ∧ decode (frame ++ chunk) = .ok value ∧
        12 ≤ (frame ++ chunk).length ∧
        (frame ++ chunk).length = announcedLength (frame ++ chunk)) ∨
      ∃ read reads' expectedTotal', reads = read :: reads' ∧
        receiver.Known (frame ++ chunk) expectedTotal' ∧
        receiver.limit expectedTotal' ≤ receiver.limit expectedTotal ∧
        run = ⟨call :: (receiver.receiveFrom decode reads' (frame ++ chunk) expectedTotal' rest).calls,
          (receiver.receiveFrom decode reads' (frame ++ chunk) expectedTotal' rest).outcome⟩)) := by
  obtain ⟨most, hmost, hremaining⟩ := remaining_eq h
  let call (got : ℕ) : ReadCall := ⟨frame.length, expectedTotal,
    min (receiver.limit expectedTotal - frame.length) receiver.chunk, got⟩
  intro run
  rcases reads with _ | ⟨error | count, reads⟩
  · refine ⟨call 0, ⟨rfl, rfl, rfl, Nat.zero_le _⟩,
      Or.inl ⟨mapPipeError .timedOut receiver.operation receiver.noProgress, ?_⟩⟩
    simp only [run, call, hmost]
    rw [receiveFrom, hremaining]
    rfl
  · refine ⟨call 0, ⟨rfl, rfl, rfl, Nat.zero_le _⟩,
      Or.inl ⟨mapPipeError error receiver.operation receiver.noProgress, ?_⟩⟩
    simp only [run, call, hmost]
    rw [receiveFrom, hremaining]
    rfl
  · obtain ⟨chunk, hchunk⟩ : ∃ chunk, left.take (min count
        (min (receiver.limit expectedTotal - frame.length) receiver.chunk)) = chunk := ⟨_, rfl⟩
    have hgot : chunk.length ≤
        min (receiver.limit expectedTotal - frame.length) receiver.chunk := by
      rw [← hchunk, List.length_take]
      omega
    have hleft : chunk ++ left.drop chunk.length = left :=
      List.prefix_iff_eq_append.1 (hchunk ▸ List.take_prefix _ left)
    by_cases hempty : chunk = []
    · refine ⟨call 0, ⟨rfl, rfl, rfl, Nat.zero_le _⟩, Or.inl ⟨receiver.closed, ?_⟩⟩
      simp only [run, call]
      rw [hmost] at hchunk ⊢
      rw [receiveFrom, hremaining]
      simp only [hchunk, hempty, List.isEmpty_nil, if_true]
    · have hrun := @receiveFrom_ok _ _ decode _ _ _ _ h reads count hchunk hempty
      have hpositive : 0 < chunk.length := List.length_pos_iff.2 hempty
      refine ⟨call chunk.length, ⟨rfl, rfl, rfl, hgot⟩, ?_⟩
      rcases @afterRead_cases _ _ decode _ _ h chunk with
        ⟨error, hafter⟩ | ⟨value, hafter, hwhole⟩ | ⟨expectedTotal', hafter, hknown, hless⟩
      · rw [hafter] at hrun
        exact Or.inl ⟨error, hrun⟩
      · rw [hafter] at hrun
        exact Or.inr ⟨chunk, _, hleft.symm, rfl, hpositive, Or.inl ⟨value, hrun, hwhole⟩⟩
      · rw [hafter] at hrun
        exact Or.inr ⟨chunk, _, hleft.symm, rfl, hpositive,
          Or.inr ⟨_, reads, expectedTotal', rfl, hknown, hless, hrun⟩⟩

theorem within_call (h : receiver.Known frame expectedTotal) {call : ReadCall}
    (hcall : call.received = frame.length ∧ call.announced = expectedTotal ∧
      call.asked = min (receiver.limit expectedTotal - frame.length) receiver.chunk ∧
      call.got ≤ call.asked) (left : List UInt8) : receiver.Within (frame ++ left) call := by
  have hlimit := h.lt_limit
  obtain ⟨hreceived, hannounced, hasked, hgot⟩ := hcall
  refine ⟨hgot, hasked ▸ Nat.min_le_right _ _, ?_⟩
  rw [hannounced]
  cases expectedTotal with
  | none =>
    have hshort : frame.length < 12 := h
    have hless : frame.length < headerBytes + receiver.format.maximum := hlimit
    have hfew : call.asked ≤ headerBytes + receiver.format.maximum - frame.length :=
      hasked ▸ Nat.min_le_left _ _
    refine ⟨hreceived ▸ hshort, ?_⟩
    omega
  | some total =>
    obtain ⟨hlong, hless, htotal, -⟩ := h
    have hfew : call.asked ≤ total - frame.length := hasked ▸ Nat.min_le_left _ _
    refine ⟨?_, by omega⟩
    rw [htotal, announcedLength, announcedLength, payloadLength_append hlong]

/-- A run from what the loop knows: it never takes a larger number from a smaller one, its reads
keep within the frame and are bounded in number, and what it returns is a frame of all it read. -/
def Faithful (receiver : Receiver) (decode : List UInt8 → Except String α) (frame : List UInt8)
    (expectedTotal : Option ℕ) (left : List UInt8) (run : Transcript α) : Prop :=
  run.outcome ≠ .underflow ∧ (∀ call ∈ run.calls, receiver.Within (frame ++ left) call) ∧
    run.calls.length ≤ receiver.limit expectedTotal - frame.length ∧
    ∀ value, run.outcome = .returned value → ∃ taken rest, left = taken ++ rest ∧
      taken.length = run.received ∧ decode (frame ++ taken) = .ok value ∧
      12 ≤ (frame ++ taken).length ∧ (frame ++ taken).length = announcedLength (frame ++ taken)

/-- A round keeps a run faithful. -/
theorem faithful_round {reads : List (Except PipeError ℕ)}
    (hlater : ∀ read reads', reads = read :: reads' → ∀ frame expectedTotal left,
      receiver.Known frame expectedTotal → receiver.Faithful decode frame expectedTotal left
        (receiver.receiveFrom decode reads' frame expectedTotal left))
    (h : receiver.Known frame expectedTotal) (left : List UInt8) :
    receiver.Faithful decode frame expectedTotal left
      (receiver.receiveFrom decode reads frame expectedTotal left) := by
  have hlimit := h.lt_limit
  obtain ⟨call, hcall, hround⟩ := @receiveFrom_cases _ _ decode _ _ h reads left
  have hwithin := within_call h hcall left
  rcases hround with ⟨error, hrun⟩ | ⟨chunk, rest, rfl, hchunk, hgot, hround⟩
  · rw [hrun]
    refine ⟨nofun, ?_, ?_, nofun⟩
    · simpa using hwithin
    · simp only [List.length_singleton]
      omega
  rcases hround with
    ⟨value, hrun, hdecode, hlong, htotal⟩ |
      ⟨read, reads', expectedTotal', hreads, hknown, hless, hrun⟩
  · rw [hrun]
    refine ⟨nofun, ?_, ?_, ?_⟩
    · simpa using hwithin
    · simp only [List.length_singleton]
      omega
    · rintro _ ⟨⟩
      exact ⟨chunk, rest, rfl, by simp [Transcript.received, hchunk], hdecode, hlong, htotal⟩
  · obtain ⟨hunderflow, hcalls, hcount, hreturned⟩ :=
      hlater read reads' hreads _ expectedTotal' rest hknown
    rw [List.length_append] at hcount
    rw [hrun]
    refine ⟨hunderflow, ?_, ?_, ?_⟩
    · intro other hother
      rcases List.mem_cons.1 hother with rfl | hother
      · exact hwithin
      · have hlaterCall := hcalls other hother
        rwa [List.append_assoc] at hlaterCall
    · simp only [List.length_cons]
      omega
    · intro value hvalue
      obtain ⟨taken, rest', rfl, htaken, hdecode, hlong, htotal⟩ := hreturned value hvalue
      rw [List.append_assoc] at hdecode hlong htotal
      refine ⟨chunk ++ taken, rest', by rw [List.append_assoc], ?_, hdecode, hlong, htotal⟩
      rw [List.length_append, htaken, hchunk]
      simp [Transcript.received]

theorem receiveFrom_faithful (h : receiver.Known frame expectedTotal)
    (reads : List (Except PipeError ℕ)) (left : List UInt8) :
    receiver.Faithful decode frame expectedTotal left
      (receiver.receiveFrom decode reads frame expectedTotal left) := by
  induction reads generalizing frame expectedTotal left with
  | nil => exact faithful_round (fun _ _ hnil => absurd hnil.symm (List.cons_ne_nil _ _)) h left
  | cons read reads ih =>
    refine faithful_round ?_ h left
    rintro _ _ ⟨⟩ frame expectedTotal left h
    exact ih h left

/-! ## Runs -/

/-- What a receiving function does with the bytes that were sent, where some frames are those of a
value. -/
structure Exact (receiver : Receiver) (frames : α → List UInt8 → Prop) (sent : List UInt8)
    (run : Transcript α) : Prop where
  noUnderflow : run.outcome ≠ .underflow
  within : ∀ call ∈ run.calls, receiver.Within sent call
  bounded : run.calls.length ≤ headerBytes + receiver.format.maximum
  returned : ∀ value, run.outcome = .returned value → ∃ frame rest, sent = frame ++ rest ∧
    frames value frame ∧ frame.length = run.received ∧ run.received = announcedLength sent
  beyond : announcedLength sent < run.received → ∃ error, run.outcome = .failed error
  sentValue : ∀ value frame, frames value frame → sent <+: frame ∨ frame <+: sent →
    ∀ other, run.outcome = .returned other → other = value

theorem exact_refused {frames : α → List UInt8 → Prop} (sent : List UInt8) (error : String) :
    receiver.Exact frames sent (.refused error) where
  noUnderflow := nofun
  within := nofun
  bounded := Nat.zero_le _
  returned := nofun
  beyond := fun _ => ⟨error, rfl⟩
  sentValue := nofun

theorem exact_receive {frames : α → List UInt8 → Prop}
    (hframes : ∀ value frame, decode frame = .ok value ↔ frames value frame)
    (hlength : ∀ value frame, frames value frame →
      12 ≤ frame.length ∧ frame.length = announcedLength frame) (pipe : Pipe) :
    receiver.Exact frames pipe.sent (receiver.receive decode pipe) := by
  have hknown : receiver.Known [] none := Nat.zero_lt_succ 11
  obtain ⟨hunderflow, hcalls, hcount, hreturned⟩ :=
    @receiveFrom_faithful _ _ decode _ _ hknown pipe.reads pipe.sent
  have hwhole : ∀ value, (receiver.receive decode pipe).outcome = .returned value →
      ∃ frame rest, pipe.sent = frame ++ rest ∧ frames value frame ∧
        frame.length = (receiver.receive decode pipe).received ∧
        (receiver.receive decode pipe).received = announcedLength pipe.sent := by
    intro value hvalue
    obtain ⟨frame, rest, hsent, hreceived, hdecode, hlong, htotal⟩ := hreturned value hvalue
    rw [List.nil_append] at hdecode hlong htotal
    refine ⟨frame, rest, hsent, (hframes _ _).1 hdecode, hreceived, ?_⟩
    rw [hsent, announcedLength, payloadLength_append hlong]
    exact hreceived.symm.trans htotal
  refine ⟨hunderflow, hcalls, hcount, hwhole, ?_, ?_⟩
  · intro hbeyond
    cases houtcome : (receiver.receive decode pipe).outcome with
    | failed error => exact ⟨error, rfl⟩
    | underflow => exact absurd houtcome hunderflow
    | returned value =>
      obtain ⟨-, -, -, -, -, htotal⟩ := hwhole value houtcome
      omega
  · intro value frame hvalue hparts other hother
    obtain ⟨read, rest, hsent, hread, hreceived, htotal⟩ := hwhole other hother
    obtain ⟨hlong, hlast⟩ := hlength value frame hvalue
    have hlongRead : 12 ≤ read.length := (hlength other read hread).1
    have hreadSent : read <+: pipe.sent := ⟨rest, hsent.symm⟩
    have hless := hreadSent.length_le
    have hsame : read.length = frame.length ∧ read <+: frame := by
      rcases hparts with ⟨more, rfl⟩ | hframe
      · have hfield := payloadLength_append (hlongRead.trans hless) more
        refine ⟨?_, hreadSent.trans (List.prefix_append _ _)⟩
        rw [hlast, hreceived, htotal, announcedLength, announcedLength, hfield]
      · obtain ⟨more, hmore⟩ := hframe
        have hlengths : read.length = frame.length := by
          rw [hlast, hreceived, htotal, ← hmore, announcedLength, announcedLength,
            payloadLength_append hlong]
        exact ⟨hlengths, List.prefix_of_prefix_length_le hreadSent ⟨more, hmore⟩ hlengths.le⟩
    obtain rfl : read = frame := hsame.2.eq_of_length hsame.1
    have hvalues := ((hframes _ _).2 hread).symm.trans ((hframes _ _).2 hvalue)
    exact Except.ok.inj hvalues

end

end Receiver

/-! ## Both formats -/

section

variable (sha256 : List UInt8 → Vector UInt8 32)

/-- The frames of a message are those of its texts. -/
def IsResultFrame (nonce : Vector UInt8 16) (message : BrokerResultMessage)
    (frame : List UInt8) : Prop :=
  ∃ text, brokerResult.encode sha256 text nonce = .ok frame ∧
    BrokerResultMessage.fromSlice text = some message

variable {sha256} {format : Format} {payload frame : List UInt8} {nonce : Vector UInt8 16}

theorem whole_of_encode (h : format.encode sha256 payload nonce = .ok frame) :
    12 ≤ frame.length ∧ frame.length = announcedLength frame ∧ format.Starts frame ∧
      payloadLength frame ≠ 0 ∧ payloadLength frame ≤ format.maximum := by
  obtain ⟨⟨hlength, hstarts, -, hcount⟩, ⟨hsome, hmaximum⟩, -⟩ :=
    (decode_eq_ok sha256).1 ((decode_iff_encode sha256).2 h)
  have hsixty : frame.length = 60 + payload.length := hlength
  refine ⟨by omega, ?_, hstarts, ?_, ?_⟩
  · rw [announcedLength, hcount, hlength]
  · rw [hcount]
    exact fun h => hsome (List.length_eq_zero_iff.1 h)
  · rw [hcount]
    exact hmaximum

theorem messageOf_eq_ok {text : List UInt8} {message : BrokerResultMessage} :
    messageOf text = .ok message ↔ BrokerResultMessage.fromSlice text = some message := by
  unfold messageOf
  cases BrokerResultMessage.fromSlice text <;> simp

theorem decodeBrokerResultFrame_eq_ok {message : BrokerResultMessage} :
    decodeBrokerResultFrame sha256 frame nonce = .ok message ↔
      IsResultFrame sha256 nonce message frame := by
  rw [decodeBrokerResultFrame_eq]
  unfold IsResultFrame
  simp only [← decode_iff_encode, ← messageOf_eq_ok]
  cases brokerResult.decode sha256 frame nonce with
  | error error => simp [Except.bind]
  | ok text => simp [Except.bind]

theorem exists_encode : (∃ frame, format.encode sha256 payload nonce = .ok frame) ↔
    payload ≠ [] ∧ payload.length ≤ format.maximum := by
  simp only [encode_eq_ok, exists_and_left, exists_eq, and_true]

theorem exact_profile (token : ProfileTransferToken) (timeout : ℕ) (pipe : Pipe) :
    profileReceiver.Exact
      (fun payload frame => encodeProfileTransferFrame sha256 payload token.nonce = .ok frame)
      pipe.sent (receiveProfileFromPipeBounded sha256 token timeout pipe) := by
  have hloop := @Receiver.exact_receive profileReceiver _
    (fun frame => decodeProfileTransferFrame sha256 frame token.nonce)
    (fun payload frame => encodeProfileTransferFrame sha256 payload token.nonce = .ok frame)
    (fun _ _ => decode_iff_encode sha256)
    (fun _ _ h => ⟨(whole_of_encode h).1, (whole_of_encode h).2.1⟩) pipe
  unfold receiveProfileFromPipeBounded
  split_ifs
  · exact Receiver.exact_refused _ _
  rcases pipe.connected with error | -
  · cases error <;> exact Receiver.exact_refused _ _
  rcases pipe.process with code | actualServerPid
  · exact Receiver.exact_refused _ _
  dsimp only
  split_ifs
  · exact Receiver.exact_refused _ _
  · exact hloop

theorem exact_result (token : ProfileTransferToken) (expectedClientPid : UInt32) (timeout : ℕ)
    (pipe : Pipe) :
    resultReceiver.Exact (IsResultFrame sha256 token.nonce) pipe.sent
      (receiveResultFrom sha256 token expectedClientPid timeout pipe) := by
  have hloop := @Receiver.exact_receive resultReceiver _
    (fun frame => decodeBrokerResultFrame sha256 frame token.nonce)
    (IsResultFrame sha256 token.nonce) (fun _ _ => decodeBrokerResultFrame_eq_ok)
    (fun _ _ h => by
      obtain ⟨text, hencode, -⟩ := h
      exact ⟨(whole_of_encode hencode).1, (whole_of_encode hencode).2.1⟩) pipe
  unfold receiveResultFrom
  split_ifs
  · exact Receiver.exact_refused _ _
  rcases pipe.connected with error | -
  · exact Receiver.exact_refused _ _
  rcases pipe.process with code | actualClientPid
  · exact Receiver.exact_refused _ _
  dsimp only
  split_ifs
  · exact Receiver.exact_refused _ _
  · exact hloop

variable (sha256)

/-- Decoding is the inverse of encoding in both formats, and the loops return exactly what was sent
in a whole frame, or an error. -/
theorem transferFrames_exact (nonce : Vector UInt8 16) :
    (∀ payload frame, decodeProfileTransferFrame sha256 frame nonce = .ok payload ↔
      encodeProfileTransferFrame sha256 payload nonce = .ok frame) ∧
    (∀ payload, (∃ frame, encodeProfileTransferFrame sha256 payload nonce = .ok frame) ↔
      payload ≠ [] ∧ payload.length ≤ Profile.maxProfileBytes) ∧
    (∀ message frame, decodeBrokerResultFrame sha256 frame nonce = .ok message ↔
      ∃ text, brokerResult.encode sha256 text nonce = .ok frame ∧
        BrokerResultMessage.fromSlice text = some message) ∧
    (∀ message frame, encodeBrokerResultFrame sha256 message nonce = .ok frame →
      decodeBrokerResultFrame sha256 frame nonce = .ok message) ∧
    (∀ message, (∃ frame, encodeBrokerResultFrame sha256 message nonce = .ok frame) ↔
      message.toVec ≠ [] ∧ message.toVec.length ≤ maxBrokerResultBytes) ∧
    (∀ serverPid timeout pipe, profileReceiver.Exact
      (fun payload frame => encodeProfileTransferFrame sha256 payload nonce = .ok frame) pipe.sent
      (receiveProfileFromPipeBounded sha256 ⟨serverPid, nonce⟩ timeout pipe)) ∧
    ∀ serverPid clientPid timeout pipe,
      resultReceiver.Exact (IsResultFrame sha256 nonce) pipe.sent
        (receiveResultFrom sha256 ⟨serverPid, nonce⟩ clientPid timeout pipe) := by
  refine ⟨fun _ _ => decode_iff_encode sha256, fun _ => exists_encode,
    fun _ _ => decodeBrokerResultFrame_eq_ok, fun message frame h => ?_, fun message => ?_,
    fun serverPid => exact_profile ⟨serverPid, nonce⟩,
    fun serverPid => exact_result ⟨serverPid, nonce⟩⟩
  · rw [encodeBrokerResultFrame_eq] at h
    exact decodeBrokerResultFrame_eq_ok.2 ⟨_, h, message.fromSlice_toVec⟩
  · simp only [encodeBrokerResultFrame_eq]
    exact exists_encode

end

/-- The read that brings the length can bring bytes past the frame. The loop then fails. -/
theorem profile_read_past_announced :
    let sha256 : List UInt8 → Vector UInt8 32 := fun _ => Vector.replicate 32 0
    let nonce : Vector UInt8 16 := Vector.replicate 16 0
    ∃ frame, encodeProfileTransferFrame sha256 [0x5B] nonce = .ok frame ∧
      let run := receiveProfileFromPipeBounded sha256 ⟨1, nonce⟩ 1
        ⟨.ok (), .ok 1, frame ++ [0], [.ok 62]⟩
      announcedLength (frame ++ [0]) = frame.length ∧ run.received = frame.length + 1 ∧
        run.outcome = .failed "profile transfer frame has trailing bytes" := by
  intro sha256 nonce
  refine ⟨profileTransfer.layout nonce.toList (sha256 [0x5B]).toList [0x5B],
    (encode_eq_ok sha256).2 ⟨by decide, rfl⟩, ?_⟩
  exact ⟨by decide, by decide, rfl⟩

end MacTypeControl.Broker.Transfer
