import MacTypeControl.Legacy.Receipt

/-!
# The backup

A backup is drafted in a generation of its own, which nothing reads before the
current pointer names it.
-/

namespace MacTypeControl.Legacy

open Crash Crash.Prog Installation

variable {env : Installation} {orig : LegacyService} {activePath : String} {m₀ s t : Machine}
  {files : String → Option Bytes} {extended : ServiceExtendedConfiguration → Prop} {gone : Prop}
  {generation : ℕ} {stages : List MigrationStage}

/-! ## Reading the service -/

section Reading

variable {E : String → Machine → Prop} {C : Machine → Prop} (herr : ∀ e, E e s) (hstop : C s)
include herr hstop

omit herr in
theorem wp_query {Q : LegacyServiceStatus → Machine → Prop} (hok : Q (env.statusOf s.service) s)
    (hfail : Q ⟨.inaccessible, .unknown⟩ s) : wp env.query Q E C s := by
  apply wp_handle
  apply wp_inspect
  · rintro status ⟨⟩
    exact hok
  · simp
  · exact wp_ret hfail
  · exact hstop

/-- A snapshot is only taken of a service that is ours. -/
theorem wp_migrationSnapshot {Q : LegacyScmSnapshot → Machine → Prop}
    (hok : ∀ service, s.service = some service →
      (classifyConfiguration service.configuration env.root).isOwned = true →
      service.state.isStable = true → service.hasTriggers = false →
      Q (env.snapshotOf service) s) : wp env.migrationSnapshot Q E C s := by
  apply wp_bind
  apply wp_query hstop
  swap
  · apply wp_bind
    apply wp_ensure _ fun _ => herr _
    intro howned
    cases hc : env.registryConflict <;> rw [hc] at howned <;> cases howned
  apply wp_bind
  apply wp_ensure _ fun _ => herr _
  intro howned
  apply wp_bind
  apply wp_ensure _ fun _ => herr _
  intro hstable
  apply wp_bind
  apply wp_inspect _ (fun e _ => herr e) (herr _) hstop
  intro read hread
  cases hs : s.service with
  | none => rw [hs] at hread; cases hread
  | some service =>
    rw [hs] at hread howned hstable
    dsimp only at hread
    obtain ⟨read', hext, hread⟩ : ∃ read', supportedExtended service = .ok read' ∧
        read = (service.configuration, read') := by
      cases hext : supportedExtended service with
      | error e => rw [hext] at hread; cases hread
      | ok read' => rw [hext] at hread; cases hread; exact ⟨read', rfl, rfl⟩
    obtain ⟨rfl, hsupported, htriggers⟩ := supportedExtended_eq_ok hext
    rw [hread]
    rw [Bool.and_eq_true] at howned
    exact wp_ret (hok service hs howned.2 hstable htriggers)

end Reading

/-! ## Drafts -/

/-- Only the generation that is being drafted may differ. -/
structure Drafted (s t : Machine) : Prop where
  service : t.service = s.service
  past : t.past = s.past
  files : t.files = s.files
  current : t.current = s.current
  clock : s.clock ≤ t.clock
  generations : ∀ g, g ≠ s.clock → t.generations g = s.generations g

/-- The draft as it stands. -/
structure Draft (s t : Machine) (directory : GenerationDirectory) : Prop
    extends Drafted s t where
  taken : s.clock < t.clock
  directory : t.generations s.clock = some directory

theorem Draft.created (s : Machine) : Draft s { s with
    clock := s.clock + 1
    generations := fun g => if g = s.clock then some ⟨[], none, none⟩ else s.generations g }
    ⟨[], none, none⟩ :=
  ⟨⟨rfl, rfl, rfl, rfl, Nat.le_succ _, fun _ hg => if_neg hg⟩, Nat.lt_succ_self _, if_pos rfl⟩

theorem Drafted.refl : Drafted s s := ⟨rfl, rfl, rfl, rfl, le_refl _, fun _ _ => rfl⟩

theorem Draft.update {directory : GenerationDirectory} (h : Draft s t directory)
    (f : GenerationDirectory → GenerationDirectory) :
    Draft s (updateGeneration t s.clock f) (f directory) := by
  refine ⟨⟨h.service, h.past, h.files, h.current, h.clock, ?_⟩, h.taken, ?_⟩
  · intro g hg
    simp only [updateGeneration, if_neg hg]
    exact h.generations g hg
  · simp [updateGeneration, h.directory]

theorem Happened.congr (hservice : t.service = s.service) (hpast : t.past = s.past)
    {stage : MigrationStage} (h : Happened orig s stage) : Happened orig t stage := by
  cases stage <;> simpa only [Happened, hservice, hpast] using h

theorem Drafted.holds (h : Drafted s t) (hs : Holds env orig activePath files generation stages s) :
    Holds env orig activePath files generation stages t := by
  obtain ⟨backups, hdirectory, hbacked⟩ := hs.directory
  refine ⟨h.current.trans hs.current, hs.old.trans_le h.clock, hs.valid, ?_, backups, ?_, hbacked⟩
  · exact fun stage hstage => (hs.happened stage hstage).congr h.service h.past
  · rw [h.generations generation (Nat.ne_of_lt hs.old), hdirectory]

theorem Drafted.continuable (h : Drafted s t)
    (hs : Continuable env orig activePath files extended gone s) :
    Continuable env orig activePath files extended gone t := by
  refine ⟨h.files.trans hs.unchanged, ?_, ?_, ?_, ?_⟩
  · rw [h.service, h.past]
    exact hs.tracked
  · rw [h.service]
    exact hs.ours
  · rw [h.service]
    exact hs.present
  · rw [h.current]
    exact hs.receipt.imp_right fun ⟨g, stages, hg⟩ => ⟨g, stages, h.holds hg⟩

theorem wp_modify_draft {io : String} {f : Machine → Machine} {Q : Unit → Machine → Prop}
    (h : Drafted s t) (hq : Q () (f t)) :
    wp (modify io f) Q (fun _ => Drafted s) (Drafted s) t :=
  wp_modify hq h h

theorem backed_recorded {backups : List (String × Bytes)} {path : String} {role : BackupRole}
    {content : Option Bytes} (hcontent : files path = content)
    (hbackup : ∀ bytes, content = some bytes →
      backups.lookup (backupName role) = some bytes) :
    Backed env files backups (env.recorded path role content) := by
  cases content with
  | none => exact hcontent
  | some bytes => exact ⟨bytes, hcontent, hbackup bytes rfl, rfl, rfl, rfl⟩

/-- Backing up one file puts it in the draft under its name and leaves the other
backups there. -/
theorem wp_profileBackupReceipt {backups : List (String × Bytes)} {path : String}
    {role : BackupRole} {content : Option Bytes} {Q : ProfileBackupReceipt → Machine → Prop}
    (h : Draft s t ⟨backups, none, none⟩)
    (hq : ∀ u backups', Draft s u ⟨backups', none, none⟩ →
      (∀ bytes, content = some bytes → backups'.lookup (backupName role) = some bytes) →
      (∀ name, name ≠ backupName role → backups'.lookup name = backups.lookup name) →
      Q (env.recorded path role content) u) :
    wp (env.profileBackupReceipt s.clock path role content) Q (fun _ => Drafted s) (Drafted s)
      t := by
  cases content with
  | none => exact wp_ret (hq t backups h (by simp) fun _ _ => rfl)
  | some bytes =>
    apply wp_bind
    apply wp_modify_draft h.toDrafted
    apply wp_ret
    apply hq _ _ (h.update _)
    · rintro _ ⟨⟩
      simp
    · intro name hname
      simp [List.lookup_cons, beq_eq_false_iff_ne.2 hname]

theorem wp_backupProfiles {Q : List ProfileBackupReceipt → Machine → Prop}
    (h : Draft s t ⟨[], none, none⟩)
    (hq : ∀ u backups, Draft s u ⟨backups, none, none⟩ →
      (∀ receipt ∈ env.recordedFiles s.files activePath, Backed env s.files backups receipt) →
      Q (env.recordedFiles s.files activePath) u) :
    wp (env.backupProfiles s.clock (s.files env.configurationPath) activePath
      (s.files activePath)) Q (fun _ => Drafted s) (Drafted s) t := by
  unfold backupProfiles recordedFiles at *
  split
  · rename_i hsame
    rw [if_pos hsame] at hq
    apply wp_bind
    apply wp_profileBackupReceipt h
    intro u backups hu hbackup _
    apply wp_ret
    apply hq u backups hu
    intro receipt hreceipt
    obtain rfl := List.mem_singleton.1 hreceipt
    exact backed_recorded rfl hbackup
  · rename_i hdifferent
    rw [if_neg hdifferent] at hq
    apply wp_bind
    apply wp_profileBackupReceipt h
    intro u backups hu hfirst _
    apply wp_bind
    apply wp_profileBackupReceipt hu
    intro v backups' hv hsecond hothers
    apply wp_ret
    apply hq v backups' hv
    intro receipt hreceipt
    rcases List.mem_pair.1 hreceipt with rfl | rfl
    · apply backed_recorded rfl
      intro bytes hbytes
      rw [hothers _ (by decide)]
      exact hfirst bytes hbytes
    · exact backed_recorded rfl hsecond

theorem wp_exportServiceRegistry {backups : List (String × Bytes)}
    {Q : RegistryExportReceipt → Machine → Prop} (hs : s.service = some orig)
    (h : Draft s t ⟨backups, none, none⟩)
    (hq : ∀ u, Draft s u ⟨backups, some (env.registryExport orig), none⟩ →
      Q (env.recordedRegistry orig) u) :
    wp (env.exportServiceRegistry s.clock) Q (fun _ => Drafted s) (Drafted s) t := by
  apply wp_bind
  apply wp_inspect _ (fun _ _ => h.toDrafted) h.toDrafted h.toDrafted
  intro bytes hbytes
  rw [h.service, hs] at hbytes
  cases hbytes
  apply wp_bind
  apply wp_modify_draft h.toDrafted
  apply wp_bind
  have hu := h.update fun d => { d with registryExport := some (env.registryExport orig) }
  apply wp_ofExcept _ fun _ _ => hu.toDrafted
  intro _ _
  exact wp_ret (hq _ hu)

/-- Making the draft current is the backup. -/
theorem Draft.makeCurrent {backups : List (String × Bytes)}
    (hs : Continuable env orig activePath files extended gone s) (hservice : s.service = some orig)
    (h : Draft s t ⟨backups, some (env.registryExport orig),
      some (env.receiptOf orig files activePath s.clock [.backupPrepared])⟩)
    (hbacked : ∀ receipt ∈ env.recordedFiles files activePath, Backed env files backups receipt) :
    Continuable env orig activePath files extended gone
        { t with current := some s.clock, past := [t.service] } ∧
      Holds env orig activePath files s.clock [.backupPrepared]
        { t with current := some s.clock, past := [t.service] } := by
  have hholds : Holds env orig activePath files s.clock [.backupPrepared]
      { t with current := some s.clock, past := [t.service] } := by
    refine ⟨rfl, h.taken, rfl, ?_, backups, h.directory, hbacked⟩
    intro stage hstage
    obtain rfl := List.mem_singleton.1 hstage
    simp [Happened, h.service, hservice]
  have ht := h.continuable hs
  exact ⟨⟨ht.unchanged, by simp, ht.ours, ht.present, Or.inr ⟨_, _, hholds⟩⟩, hholds⟩

theorem requireOwned_absent (env : Installation) (status : LegacyServiceStatus) (h : status.presence.isOwned = false) :
    ∃ e, env.requireOwnedLegacyService status = .error e := by
  unfold requireOwnedLegacyService
  cases env.registryConflict with
  | true => exact ⟨_, rfl⟩
  | false =>
    rw [h]
    exact ⟨_, rfl⟩

/-- A backup of the original service. It is not taken of a service that is absent. -/
theorem Continuable.prepareBackup (hm : Migratable env orig activePath m₀)
    (h : Continuable env orig activePath m₀.files extended gone s)
    (hservice : s.service = none ∨ s.service = some orig) :
    wp env.prepareBackup
      (fun _ t => Continuable env orig activePath m₀.files extended gone t ∧
        s.service = some orig ∧ t.service = some orig ∧
        ∃ g, Holds env orig activePath m₀.files g [.backupPrepared] t)
      (fun _ => Drafted s) (Drafted s) s := by
  have hrefl : Drafted s s := Drafted.refl
  have hunowned : ∀ (status : LegacyServiceStatus) (next : Unit → Migration MigrationReceipt) Q,
      status.presence.isOwned = false →
      wp (ofExcept (env.requireOwnedLegacyService status) >>= next) Q (fun _ => Drafted s)
        (Drafted s) s := by
    intro status next Q hunowned
    obtain ⟨e, he⟩ := requireOwned_absent env status hunowned
    rw [he]
    exact wp_bind (wp_throw hrefl)
  apply wp_bind
  apply wp_query hrefl
  swap
  · exact hunowned _ _ _ rfl
  rcases hservice with hnone | hsome
  · rw [hnone]
    exact hunowned _ _ _ rfl
  apply wp_bind
  apply wp_ofExcept _ fun _ _ => hrefl
  intro _ _
  apply wp_bind
  refine wp_ensure (fun _ => ?_) fun _ => hrefl
  apply wp_bind
  apply wp_migrationSnapshot (fun _ => hrefl) hrefl
  intro service hs _ _ _
  rw [hsome] at hs
  cases hs
  apply wp_bind
  apply wp_inspect _ (fun _ _ => hrefl) hrefl hrefl
  rintro _ ⟨⟩
  rw [h.unchanged, hm.profile, ← h.unchanged]
  apply wp_bind
  apply wp_ret
  apply wp_bind
  apply wp_inspect _ (fun _ _ => hrefl) hrefl hrefl
  rintro _ ⟨⟩
  apply wp_bind
  apply wp_bind
  apply wp_observe
  apply wp_bind
  apply wp_modify_draft hrefl
  have hcreated := Draft.created s
  apply wp_ret
  apply wp_bind
  apply wp_backupProfiles hcreated
  intro t₁ backups h₁ hbacked
  apply wp_bind
  apply wp_exportServiceRegistry hsome h₁
  intro t₂ h₂
  have hwritten := h₂.update fun d => { d with
    receipt := some (env.receiptOf orig s.files activePath s.clock [.backupPrepared]) }
  apply wp_bind
  apply wp_atomic _ (fun _ _ => h₂.toDrafted) h₂.toDrafted h₂.toDrafted
  intro _ t₃ ht₃
  split at ht₃
  · cases ht₃
  cases ht₃
  apply wp_bind
  apply wp_inspect _ (fun _ _ => hwritten.toDrafted) hwritten.toDrafted hwritten.toDrafted
  intro _ _
  apply wp_bind
  refine wp_modify ?_ hwritten.toDrafted hwritten.toDrafted
  apply wp_ret
  rw [h.unchanged] at hwritten hbacked
  obtain ⟨hcont, hholds⟩ := hwritten.makeCurrent h hsome hbacked
  rw [h.unchanged]
  exact ⟨hcont, hsome, h₂.service.trans hsome, _, hholds⟩

end MacTypeControl.Legacy
