import MacTypeControl.Host.ProfileRuntime
import MacTypeControl.ProfileStore.Register

/-!
# What the service can find of the profile store

Whatever commands the setup has run on the profile store, and wherever they were stopped, the
service starts with the profile of the register or leaves the start to recovery. It never starts
with another profile, or with one that is only half in place.
-/

namespace MacTypeControl.Host

open Crash Crash.Prog Profile Storage ProfileStore
open Injection (StructuredServiceError)

variable {χ : Type} {env : StorageEnvironment} {root : String} {r : Register} {m t : Machine χ}

/-- What the service does with the profile that is active. -/
def serve : Option GenerationId → Except StructuredServiceError InitializedRuntime
  | none => .error activeProfileAbsent
  | some generation => .ok (readyWith generation)

theorem CommittedHere.congr (h : CommittedHere m) (hsame : SameRuntime m t) : CommittedHere t := by
  intro file hfile
  rw [hsame.journal] at hfile
  obtain ⟨receipt, hparse, hphase, hactivated⟩ := h file hfile
  rw [← hsame.pointer] at hactivated
  exact ⟨receipt, hparse, hphase, hactivated⟩

/-- At rest the service finds what the register holds. -/
theorem starts_settled (h : Settled env root r t) (hcommitted : CommittedHere t) :
    initializeProtectedProfile env t = serve r.active := by
  have hread := h.active
  cases hactive : r.active with
  | none =>
    have habsent : t.activeProfile = none := by
      rw [hactive] at hread
      change readOptionalPointer t.activeProfile = .ok none at hread
      unfold readOptionalPointer at hread
      split at hread
      · next hnone => exact hnone
      · split at hread <;> cases hread
    exact initializeProtectedProfile_absent hcommitted ⟨h.journal, habsent, h.runtime.active⟩
  | some generation =>
    obtain ⟨bytes, hbytes⟩ := h.activeVerified generation hactive
    have hprofile : t.generatedProfile root = some bytes := by
      rw [h.materialized, hactive]
      exact verified_bind_toOption hbytes
    rw [hactive] at hread
    exact (initializeProtectedProfile_ok_iff env t _).2 ⟨hcommitted, root, generation,
      ⟨h.journal, hread, h.runtime.active, bytes, hbytes, hprofile⟩, rfl⟩

/-- With a journal left, the service demands recovery. -/
theorem starts_standing (h : Stands env root r m t) (hcommitted : CommittedHere m) :
    initializeProtectedProfile env t =
      if t.profileJournal.isSome then .error activationRecoveryRequired else serve r.active := by
  cases h with
  | settled h same =>
    rw [h.journal]
    exact starts_settled h (hcommitted.congr same)
  | interrupted h same =>
    rw [h.written]
    exact initializeProtectedProfile_journal (by simp [h.written])

/-- The service starts with exactly the profile that is active in the register, or finds a journal
and demands recovery. After a command that is done it starts in any case. -/
structure Served (env : StorageEnvironment) (t : Machine χ) (r : Register) : Prop where
  now : initializeProtectedProfile env t =
    if t.profileJournal.isSome then .error activationRecoveryRequired else serve r.active
  next : ∀ (command : ProfileCommand) faults u,
    (command.program env).result faults t = (.done (), u) →
      initializeProtectedProfile env u = serve (command.next env r (.done ())).active

/-- After any commands, stopped or failed anywhere, the service serves the register. -/
theorem commands_served (env : StorageEnvironment) (root : String) (r : Register)
    (m : Machine χ) (h : Settled env root r m) (hcommitted : CommittedHere m)
    (commands : List (ProfileCommand × List Fault)) :
    Served env (afterCommands env commands (m, r)).1 (afterCommands env commands (m, r)).2 := by
  have hstands := stands_commands commands (.settled h (.refl m))
  refine ⟨starts_standing hstands hcommitted, fun command faults u hdone => ?_⟩
  have hobeys := command.obeys hstands faults
  rw [hdone] at hobeys
  exact starts_settled hobeys.1 (hcommitted.congr hobeys.2)

theorem firstProfileActive_settled : Settled byteAtATime "1.0.0"
    ⟨some (byteAtATime.sha256Digest smallProfile), none⟩ firstProfileActive where
  journal := rfl
  runtime := by
    obtain ⟨name, hroot⟩ := firstProfileActive_sound.runtime
    obtain rfl : name = some "1.0.0" := Except.ok.inj (hroot.active.symm.trans rfl)
    exact hroot
  active := rfl
  previous := rfl
  activeVerified := fun g hg => ⟨smallProfile, by cases hg; rfl⟩
  previousVerified := fun g hg => by cases hg
  materialized := rfl

/-- The rollback of the first profile is stopped, and recovery is stopped after it. -/
def stoppedRollback : List (ProfileCommand × List Fault) :=
  [(.operation .rollback, stoppedAfter 12), (.recover, stoppedAfter 8)]

/-- The store in which the first profile is active, with its register. -/
def firstProfile : Machine Unit × Register :=
  (firstProfileActive, ⟨some (byteAtATime.sha256Digest smallProfile), none⟩)

theorem commands_served_stoppedRollback :
    Served byteAtATime (afterCommands byteAtATime stoppedRollback firstProfile).1
      (afterCommands byteAtATime stoppedRollback firstProfile).2 :=
  commands_served byteAtATime "1.0.0" firstProfile.2 firstProfile.1 firstProfileActive_settled
    (fun file hfile => by cases hfile) stoppedRollback

end MacTypeControl.Host
