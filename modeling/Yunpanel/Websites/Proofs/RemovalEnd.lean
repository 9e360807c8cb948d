/-
What is left of a website that was removed.

The last step of a removal deletes the website's record through the call a
migration is rolled back with, and does not pass the domain that call
derives the record's id from. The call throws, the error is swallowed, and
the step succeeds. So in every run, of careful calls or not, the website of
every removed operation is still there (`cleanlyRemoved_iff`).
-/
import Yunpanel.Websites.Proofs.RemovalRuns

namespace Yunpanel.Websites

open Json Lib Lib.Result Flight
open RemovalPlan (Preview createWebsiteRemovalPreview)

variable {config : RemovalConfig}

-- ====== deletion

/-- Without a domain the call throws. -/
theorem deleteMigrationWebsite_without_domain (c : Config)
    (sha1 : List Nat → List Nat) (websites : List (Website c.net))
    (input : MigrationInput) (h : input.domainId = .null) :
    ∃ e, deleteMigrationWebsite c sha1 websites input = .error e := by
  unfold deleteMigrationWebsite
  rw [h]
  cases uuid input.applicationId "invalid_application_id" "applicationId" with
  | error e => exact ⟨e, rfl⟩
  | ok id =>
      exact ⟨refuse "invalid_domain_id" "domainId is invalid", rfl⟩

/-- The last step deletes nothing. -/
theorem finalizeMetadata_eq (s : Removals config) (op : Operation) :
    finalizeMetadata s op = s := by
  unfold finalizeMetadata
  split
  · rename_i websites hok
    obtain ⟨e, herror⟩ := deleteMigrationWebsite_without_domain
      config.toConfig config.sha1 s.websites
      { applicationId := Json.ofOption Json.str op.applicationId
        websiteId := .str op.websiteId
        serverId := .str op.serverId } rfl
    rw [herror] at hok
    cases hok
  · rfl

-- ====== presence

/-- Every operation is one of a website that is there. -/
def Present (websites : List (Website config.net)) (ops : List Operation) :
    Prop :=
  ∀ op ∈ ops, ∃ w ∈ websites, w.id.text = op.websiteId

variable {websites : List (Website config.net)}

theorem Present.load {ops : List Operation} (h : Present websites ops) :
    Present websites (Journal.load ops) := by
  suffices hall : ∀ done rest : List Operation, Present websites done →
      Present websites rest →
      Present websites (rest.foldl (fun ops op =>
        upsert (fun o => o.id == op.id) (fun _ => op) ops) done) from
    hall [] ops (by simp [Present]) h
  intro done rest hdone hrest
  induction rest generalizing done with
  | nil => exact hdone
  | cons op rest ih =>
      have hboth := List.forall_mem_cons.mp hrest
      refine ih _ (fun o ho => ?_) hboth.2
      rcases mem_upsert ho with ho | rfl
      · exact hdone o ho
      · exact hboth.1

variable {j : Journal} {preview : Preview}

theorem Present.updateStep {j' : Journal} {now operationId stepId : String}
    {updater : Journal.Updater} {status : StepStatus}
    {around : OperationStatus → OperationStatus}
    (hmakes : Journal.Makes updater status around)
    (h : j.updateStep now operationId stepId updater = .ok j')
    (hj : Present websites j.operations) :
    Present websites j'.operations := by
  obtain ⟨-, i, op, k, step, op₁, step₁, hop, -, hupdater, rfl⟩ :=
    Journal.updateStep_eq_ok h
  refine forall_mem_set hj ?_
  have hsite : op₁.websiteId = op.websiteId :=
    (hmakes op step op₁ step₁ hupdater).2.1
  show ∃ w ∈ websites, w.id.text = op₁.websiteId
  rw [hsite]
  exact hj op (mem_of_locate hop)

/-- The website of every operation the panel knows of is there. -/
structure Housed (websites : List (Website config.net))
    (s : Removals config) : Prop where
  same : s.websites = websites
  journal : Present websites s.journal.operations
  file : ∀ ops, s.file = .stored ops → Present websites ops
  started : ∀ ops ∈ s.started, Present websites ops

theorem Housed.operations {s : Removals config} (h : Housed websites s) :
    Present websites s.operations := by
  unfold Removals.operations
  split
  · exact h.journal
  · cases hfile : s.file with
    | absent => exact fun op hop => (nomatch hop)
    | torn => exact fun op hop => (nomatch hop)
    | stored ops => exact (h.file ops hfile).load

theorem Housed.record {s : Removals config} (h : Housed websites s)
    (hj : Present websites j.operations) :
    Housed websites (s.record j) :=
  ⟨h.same, hj, h.file, forall_mem_concat h.started hj⟩

/-- So is the website a call has looked up, and those of the operations it
is writing. -/
structure Guest (websites : List (Website config.net))
    (k : Stage config) : Prop where
  website : ∀ confirmation w, k = .previewing confirmation w → w ∈ websites
  snapshot : ∀ ops, k.snapshot = some ops → Present websites ops

/-- What a segment leaves. -/
structure Leaves (websites : List (Website config.net))
    (seg : Segment config) : Prop where
  housed : Housed websites seg.1
  guest : ∀ k ∈ seg.2.1, Guest websites k

variable {s : Removals config}

theorem leaves_over (h : Housed websites s) (notes : List RemovalNote) :
    Leaves websites (s, none, notes) :=
  ⟨h, by simp⟩

theorem leaves_clear (h : Housed websites s) (k : Stage config)
    (hwebsite : ∀ confirmation w, k ≠ .previewing confirmation w)
    (hsnapshot : k.snapshot = none) (notes : List RemovalNote) :
    Leaves websites (s, some k, notes) := by
  refine ⟨h, fun k' hk' => ?_⟩
  obtain rfl := Option.some.inj hk'
  refine ⟨fun confirmation w he => absurd he (hwebsite confirmation w), ?_⟩
  rw [hsnapshot]
  simp

theorem leaves_records {next : After} {notes : List RemovalNote}
    (h : Housed websites s) (hj : Present websites j.operations) :
    Leaves websites (.goes (s.record j) (.saving j.operations next)
      notes) := by
  refine ⟨h.record hj, fun k hk => ?_⟩
  obtain rfl := Option.some.inj hk
  exact ⟨fun _ _ he => (nomatch he), fun ops hops =>
    Option.some.inj hops ▸ hj⟩

theorem leaves_runNextStep (h : Housed websites s) (operationId : String) :
    Leaves websites (runNextStep s operationId) := by
  unfold runNextStep
  split
  · exact leaves_over h _
  · exact leaves_over h _
  · exact leaves_clear h (.loaded _) (fun _ _ he => nomatch he) rfl _

theorem leaves_failStep (h : Housed websites s) (env : RemovalEnv)
    (operationId : String) (step : Step) (e : StepError) :
    Leaves websites (failStep s env operationId step e) := by
  unfold failStep Segment.records
  split
  · exact leaves_over h _
  · rename_i j hj
    exact leaves_records h (h.journal.updateStep (Journal.makes_failed e) hj)

theorem leaves_succeedStep (h : Housed websites s) (env : RemovalEnv)
    (op : Operation) (step : Step) (details : Json) :
    Leaves websites (succeedStep s env op step details) := by
  unfold succeedStep recordOutcome
  split
  · exact leaves_failStep h env _ _ _
  · rename_i j hj
    exact leaves_records h
      (h.journal.updateStep (Journal.makes_succeeded _) hj)

theorem leaves_blockStep (h : Housed websites s) (env : RemovalEnv)
    (op : Operation) (step : Step) (e : StepError) :
    Leaves websites (blockStep s env op step e) := by
  unfold blockStep recordOutcome
  split
  · exact leaves_failStep h env _ _ _
  · rename_i j hj
    exact leaves_records h (h.journal.updateStep (Journal.makes_blocked e) hj)

theorem leaves_sweep (h : Housed websites s) (env : RemovalEnv)
    (views : List Operation) : Leaves websites (sweep s env views) := by
  induction views with
  | nil => exact leaves_over h _
  | cons v rest ih =>
      unfold sweep
      split
      · exact ih
      · unfold Segment.records
        split
        · exact leaves_over h _
        · rename_i j hj
          exact leaves_records h
            (h.journal.updateStep (Journal.makes_blocked _) hj)

/-- A new operation is one of the website that was looked up. -/
theorem leaves_startPreviewed (h : Housed websites s) (env : RemovalEnv)
    (confirmation : String)
    (hpreview : ∃ w ∈ websites, w.id.text = preview.website.id) :
    Leaves websites (startPreviewed s env confirmation preview) := by
  unfold startPreviewed
  split
  · split
    · exact leaves_over h _
    · rename_i op j hcreate
      refine leaves_records h ?_
      simp only [Journal.create, bind_eq_ok, exists_unit, pure_eq,
        Except.ok.injEq, Prod.mk.injEq] at hcreate
      obtain ⟨-, -, -, rfl, rfl⟩ := hcreate
      intro o ho
      rcases mem_upsert ho with ho | rfl
      · exact h.journal o ho
      · exact hpreview
  · exact leaves_over h _

theorem website_of_preview {c : Config} {w : Website c.net}
    {impact : RemovalPlan.Impact}
    (h : createWebsiteRemovalPreview c w impact = .ok preview) :
    preview.website.id = w.id.text := by
  simp only [createWebsiteRemovalPreview, bind_eq_ok, exists_unit, pure_eq,
    Except.ok.injEq] at h
  obtain ⟨-, -, -, -, plan, -, rfl⟩ := h
  rfl

theorem mem_of_lookUpWebsite {websiteId : String} {w : Website config.net}
    (h : lookUpWebsite s websiteId = .ok w) : w ∈ s.websites := by
  unfold lookUpWebsite at h
  split at h
  · cases h
  · split at h
    · rename_i hfind
      obtain rfl := Except.ok.inj h
      exact List.mem_of_find?_eq_some hfind
    · cases h

theorem leaves_resume (h : Housed websites s) {k : Stage config}
    (hk : Guest websites k) (env : RemovalEnv) :
    Leaves websites (resume s k env) := by
  cases k with
  | entered c =>
      cases c with
      | init =>
          unfold resume
          dsimp only
          split
          · exact leaves_clear h .listing (fun _ _ he => nomatch he) rfl _
          · exact leaves_clear h .reading (fun _ _ he => nomatch he) rfl _
      | start confirmation =>
          unfold resume
          dsimp only
          split
          · exact leaves_over h _
          · split
            · exact leaves_over h _
            · rename_i w hw
              refine ⟨h, fun k hk => ?_⟩
              obtain rfl := Option.some.inj hk
              refine ⟨fun _ w' he => ?_, fun _ hops => (nomatch hops)⟩
              obtain ⟨-, rfl⟩ := Stage.previewing.inj he
              exact h.same ▸ mem_of_lookUpWebsite hw
      | continueStep input =>
          unfold resume
          dsimp only
          split
          · exact leaves_over h _
          · exact leaves_over h _
          · exact leaves_clear h (.checking _ _) (fun _ _ he => nomatch he)
              rfl _
  | reading =>
      unfold resume
      dsimp only
      split
      · exact leaves_over h _
      · have hread : Present websites s.file.operations := by
          cases hfile : s.file with
          | absent => exact fun op hop => (nomatch hop)
          | torn => exact fun op hop => (nomatch hop)
          | stored ops => exact (h.file ops hfile).load
        have hloaded : Housed websites
            { s with journal := ⟨s.file.operations, true⟩ } :=
          ⟨h.same, hread, h.file, h.started⟩
        exact leaves_clear hloaded .listing (fun _ _ he => nomatch he) rfl _
  | listing =>
      exact leaves_clear h (.sweeping _) (fun _ _ he => nomatch he) rfl _
  | sweeping views => exact leaves_sweep h env views
  | previewing confirmation w =>
      unfold resume
      dsimp only
      split
      · exact leaves_over h _
      · split
        · exact leaves_over h _
        · rename_i preview hpreview
          exact leaves_startPreviewed h env confirmation
            ⟨w, hk.website confirmation w rfl,
              (website_of_preview hpreview).symm⟩
  | checking input op =>
      unfold resume
      dsimp only
      split
      · exact leaves_over h _
      · exact leaves_runNextStep h op.id
  | loaded op =>
      show Leaves websites (markNext s env op)
      unfold markNext
      split
      · exact leaves_over h _
      · unfold Segment.records
        split
        · exact leaves_over h _
        · rename_i j hj
          exact leaves_records h
            (h.journal.updateStep Journal.makes_running hj)
  | reloaded op step =>
      show Leaves websites (beginWork s env op step)
      unfold beginWork
      split
      · rw [finalizeMetadata_eq, ite_self]
        exact leaves_clear h (.working _ _) (fun _ _ he => nomatch he) rfl _
      · exact leaves_succeedStep h env op step _
  | working op step =>
      show Leaves websites (endWork s env op step)
      have hstays : ∀ notes,
          Leaves websites (s, some (.working op step), notes) :=
        leaves_clear h (.working op step) (fun _ _ he => nomatch he) rfl
      unfold endWork
      split
      · exact leaves_succeedStep h env op step _
      · exact leaves_failStep h env op.id step _
      · unfold endDomainRemoval
        split
        · exact leaves_succeedStep h env op step _
        · exact leaves_blockStep h env op step _
        · exact leaves_blockStep h env op step _
        · exact leaves_over h _
      · exact hstays _
      · exact leaves_succeedStep h env op step _
      · exact hstays _
  | saving snapshot next =>
      show Leaves websites (saved s env snapshot next)
      unfold saved
      split
      · have h' : Housed websites { s with file := .stored snapshot } :=
          ⟨h.same, h.journal, fun ops he =>
            JournalFile.stored.inj he ▸ hk.snapshot snapshot rfl, h.started⟩
        cases next with
        | created operationId => exact leaves_runNextStep h' operationId
        | marked operationId step =>
            unfold goOn
            dsimp only
            split
            · exact leaves_over h' _
            · exact leaves_over h' _
            · exact leaves_clear h' (.reloaded _ _)
                (fun _ _ he => nomatch he) rfl _
        | succeeded _ _ => exact leaves_over h' _
        | blocked _ _ => exact leaves_over h' _
        | failed _ => exact leaves_over h' _
        | swept rest =>
            exact leaves_clear h' (.sweeping rest)
              (fun _ _ he => nomatch he) rfl _
      · split
        · exact leaves_failStep h env _ _ _
        · exact leaves_failStep h env _ _ _
        · exact leaves_over h _

-- ====== runs

theorem keeps_housed (websites : List (Website config.net)) :
    (removalProtocol config).Keeps (fun _ _ => True) (Housed websites)
      (fun _ => Guest websites) where
  start _ _ _ _ := ⟨fun _ _ he => (nomatch he), fun _ he => (nomatch he)⟩
  resume f id env k _ _ hf hk := by
    have hleaves := leaves_resume hf hk env
    exact ⟨hleaves.housed, hleaves.guest, fun _ hother => hother⟩
  world f x _ hf := by
    refine ⟨?_, fun _ hk => hk⟩
    show Housed websites (removalWorld f.shared x)
    unfold removalWorld
    split
    · split
      · exact hf
      · rename_i ops hops
        exact ⟨hf.same, hf.journal, fun ops' he =>
          JournalFile.stored.inj he ▸
            hf.started ops (List.mem_of_getElem? hops), hf.started⟩
    · split
      · exact hf
      · exact ⟨hf.same, hf.journal, fun _ he => (nomatch he),
          hf.started⟩
  restart _ _ hf :=
    ⟨hf.same, fun _ hop => (nomatch hop), hf.file,
      fun _ hops => (nomatch hops)⟩

/-- In every state of every run the websites are those there were. -/
theorem housed_run (config : RemovalConfig)
    (websites : List (Website config.net)) (events : List RemovalEvent) :
    Housed websites ((removalProtocol config).machine.run
      (fresh (Removals.boot .absent websites)) events).shared := by
  have hboot : Housed websites
      (Removals.boot .absent websites : Removals config) :=
    ⟨rfl, fun _ hop => (nomatch hop), fun _ he => (nomatch he),
      fun _ hops => (nomatch hops)⟩
  exact (Protocol.keeps_run (keeps_housed websites)
    (Machine.allowed_of_forall _ (fun _ _ => trivial) _ events)
    (Protocol.sound_fresh hboot)).shared

/-- What a removal is for: once an operation is removed, the record of its
website is gone, and nothing refers to the website or its application any
more. -/
def CleanlyRemoved (s : Removals config) (referenced : Operation → Prop) :
    Prop :=
  ∀ op ∈ s.operations, op.status = .removed →
    (¬∃ w ∈ s.websites, w.id.text = op.websiteId) ∧ ¬referenced op

theorem Housed.not_cleanlyRemoved (h : Housed websites s) {op : Operation}
    (hop : op ∈ s.operations) (hremoved : op.status = .removed)
    (referenced : Operation → Prop) :
    ¬CleanlyRemoved s referenced := by
  intro hclean
  obtain ⟨w, hw, he⟩ := h.operations op hop
  exact (hclean op hop hremoved).1 ⟨w, h.same ▸ hw, he⟩

/-- No run gets there: whatever still refers to the websites, the removals
are clean only as long as there is none. -/
theorem cleanlyRemoved_iff (config : RemovalConfig)
    (websites : List (Website config.net))
    (events : List RemovalEvent) (referenced : Operation → Prop) :
    let s := ((removalProtocol config).machine.run
      (fresh (Removals.boot .absent websites)) events).shared
    CleanlyRemoved s referenced
      ↔ ∀ op ∈ s.operations, op.status ≠ .removed := by
  intro s
  have hs : Housed websites s := housed_run config websites events
  constructor
  · intro hclean op hop hremoved
    exact hs.not_cleanlyRemoved hop hremoved referenced hclean
  · intro hnone op hop hremoved
    exact absurd hremoved (hnone op hop)

/-- A website nothing refers to is removed, step by step, and its record is
there afterwards. -/
theorem removed_website_remains :
    ¬CleanlyRemoved ((removalProtocol samplePanel).machine.run
        (fresh (Removals.boot .absent [sampleWebsite]))
        (startedRemoval ++ continuedOnce)).shared (fun _ => False) := by
  obtain ⟨op, hop, hstatus⟩ := continuedOnce_runs.2
  exact (housed_run samplePanel [sampleWebsite] _).not_cleanlyRemoved hop
    hstatus _

end Yunpanel.Websites
