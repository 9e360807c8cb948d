/-
What continuing an operation comes to, where everything else is at rest.

# The outcomes

A mapping that waits for a job gets one for the configuration as it is now.
A mapping whose job has failed or was cancelled gets another only where the
configuration is still the one that job was for: where it has changed the
continuation refuses, as it does where the job is not to be found, and
nothing else can finish the operation (`retry_refused`).

# The proof

The call runs on its own (`Protocol.run_alone`), and `Stepping` follows it
from stage to stage. That the configuration fulfils what the operation
wants needs no premise: it is made of the mappings as they are
(`fulfils_of_current`).
-/
import Yunpanel.Roundcube.Proofs.Service

namespace Yunpanel.Roundcube

open Json Lib Lib.Result
open Jobs (Job PublicJob publicJob)

variable {c : Context} {s : Panel}

-- ====== statements

/-- What a caller sends to continue the operation of a mapping, as the
service offers it. -/
def continueInput (c : Context) (mapping : Mapping) (operationId : Reference) :
    ContinueInput where
  mailDomainId := mapping.mailDomainId.json
  operationId := operationId.json
  expectedUpdatedAt := c.isoDate mapping.updatedAt
  confirmation := .str (c.joined mapping operationId)

/-- The segments of a call, with the writes of the jobs settling before the
last two. -/
def soloTurns (writes : Nat) (env : Env) : List (Env ⊕ JobEvent) :=
  List.replicate 10 (.inl env)
    ++ List.replicate (writes + 1) (.inr (.settle true))
    ++ List.replicate 2 (.inl env)

/-- What `jobFor` throws where the job of a mapping is not to be found. -/
def jobMissing : Failure :=
  refuse "roundcube_mapping_apply_job_missing"
    "Roundcube mapping references a missing apply job" 409

/-- A continuation on its own. -/
def continuation (c : Context) (f : Flight Panel Stage) (env : Env)
    (mapping : Mapping) (operationId : Reference) : List MappingEvent :=
  .start (.continueOperation (continueInput c mapping operationId))
    :: (soloTurns f.shared.jobs.store.queue.length env).map
      (Protocol.soloEvent f.calls.length)

/-- What is outside answers, writes land, and the configuration of the
server is ready. -/
structure Works (c : Context) (s : Panel) (env : Env) (mapping : Mapping)
    (config : Configuration) : Prop where
  readable : env.readable = true
  ready : env.ready = .ok true
  written : env.written = .landed
  unbroken : s.jobs.store.broken = false
  config : materializeCurrent c env.materials mapping.serverId
    (listMappings mapping.serverId s.mappings) = .ok config

/-- No apply job of the server is queued or running. -/
def NoApply (s : Panel) (mapping : Mapping) : Prop :=
  ∀ job ∈ s.jobs.mem, job.serverId = mapping.serverId.text →
    job.operation = .roundcubeConfigApply → job.status.active = false

/-- The job an attempt would replace. -/
def Mapping.previous (mapping : Mapping) : Option Reference :=
  mapping.phase.evidence?.map Evidence.jobId

/-- The job that an attempt asks for. -/
def Mapping.request (c : Context) (mapping : Mapping)
    (operationId : Reference) (config : Configuration) :
    Jobs.EnqueueRequest :=
  applyRequest c mapping operationId mapping.previous config

/-- Nothing runs on the server, and the key of the attempt is one and is
not that of other work. -/
structure Free (c : Context) (s : Panel) (mapping : Mapping)
    (operationId : Reference) (config : Configuration) : Prop where
  server : ∀ job ∈ s.jobs.mem,
    job.occupies .server mapping.serverId.text = false
  key : Jobs.validIdempotencyKey
    (idempotencyKey mapping operationId mapping.previous) = true
  work : ∀ job ∈ s.jobs.mem, job.hasKey
      (idempotencyKey mapping operationId mapping.previous) = true →
    job.idempotencyDigest = Jobs.requestDigest c.protocol
      (mapping.request c operationId config)

/-- The mapping has a job of the registry, and its evidence is of the
configuration. -/
def Attached (c : Context) (s : Panel) (mapping : Mapping)
    (operationId : Reference) (config : Configuration) : Prop :=
  ∃ jobId : Reference,
    getRecordForMailDomain mapping.mailDomainId s.mappings
        = some (mapping.withPhase (mapping.phase.attached
          (config.evidence c.toPlatform jobId)))
      ∧ ∃ job ∈ s.jobs.mem, job.id.text = jobId.text
          ∧ job.hasKey (idempotencyKey mapping operationId mapping.previous)
            = true
          ∧ job.idempotencyDigest = Jobs.requestDigest c.protocol
              (mapping.request c operationId config)

/-- The call was rejected and changed nothing. -/
structure Refused (c : Context) (f : Flight Panel Stage)
    (events : List MappingEvent) (e : Failure) : Prop where
  rejected : (f.calls.length, .rejected e) ∈ (protocol c).notes f events
  mappings : ((protocol c).machine.run f events).shared.mappings
    = f.shared.mappings
  file : ((protocol c).machine.run f events).shared.file = f.shared.file
  jobs : ((protocol c).machine.run f events).shared.jobs.mem
    = f.shared.jobs.mem

/-- A mapping whose operation can be continued. -/
structure Continuable (f : Flight Panel Stage) (mapping : Mapping)
    (operationId : Reference) : Prop where
  stored : mappingOf f mapping.mailDomainId = some mapping
  inFlight : mapping.phase.inFlight = true
  operation : mapping.phase.operationId? = some operationId

/-- Whatever has become of its job, a mapping in flight gets one for the
configuration as it is now. -/
def NeverStuck (c : Context) (f : Flight Panel Stage) : Prop :=
  ∀ mapping operationId env config, Continuable f mapping operationId →
    (∀ evidence ∈ mapping.phase.evidence?,
      ∀ job ∈ Jobs.findJob f.shared.jobs.mem evidence.jobId.text,
        job.status = .failed ∨ job.status = .cancelled) →
    Works c f.shared env mapping config → NoApply f.shared mapping →
      Attached c ((protocol c).machine.run f
        (continuation c f env mapping operationId)).shared mapping
        operationId config

-- ====== distinct

/-- What a segment leaves in memory and in the file. -/
theorem resume_distinct (s : Panel) (k : Stage) (env : Env)
    (h : Distinct s.mappings ∧ Distinct s.file) :
    Distinct (s.resume c k env).1.mappings
      ∧ Distinct (s.resume c k env).1.file := by
  have hchange : ∀ notes operation,
      Distinct (s.change env notes operation).1.mappings
        ∧ Distinct (s.change env notes operation).1.file := by
    intro notes operation
    unfold Panel.change
    cases hmutate : mutate operation s.mappings with
    | error e => exact h
    | ok result =>
        obtain ⟨new, next⟩ := result
        have hnext := (mutate_eq_ok hmutate).2
        cases env.written with
        | landed => exact ⟨hnext, hnext⟩
        | lost => exact h
        | torn => exact ⟨h.1, hnext⟩
  have howned : ∀ (mapping : Mapping) (g : Reference → Segment),
      (∀ operationId, Distinct (g operationId).1.mappings
        ∧ Distinct (g operationId).1.file) →
      Distinct (s.owned mapping g).1.mappings
        ∧ Distinct (s.owned mapping g).1.file := by
    intro mapping g hg
    unfold Panel.owned
    split
    · exact hg _
    · exact h
  have henqueued : ∀ (s' : Panel) mapping replacing config answer,
      Distinct s'.mappings ∧ Distinct s'.file →
        Distinct (s'.enqueued mapping replacing config answer).1.mappings
          ∧ Distinct
            (s'.enqueued mapping replacing config answer).1.file := by
    intro s' mapping replacing config answer hs'
    unfold Panel.enqueued
    split <;> exact hs'
  cases k with
  | entered call =>
      cases call with
      | beginBind input =>
          show Distinct (Panel.enter s c env (.beginBind input)).1.mappings
            ∧ Distinct (Panel.enter s c env (.beginBind input)).1.file
          unfold Panel.enter
          dsimp only
          split <;> exact h
      | beginDelete input =>
          show Distinct (Panel.enter s c env (.beginDelete input)).1.mappings
            ∧ Distinct (Panel.enter s c env (.beginDelete input)).1.file
          unfold Panel.enter
          dsimp only
          split <;> exact h
      | continueOperation input =>
          show Distinct
              (Panel.enter s c env (.continueOperation input)).1.mappings
            ∧ Distinct (Panel.enter s c env (.continueOperation input)).1.file
          unfold Panel.enter
          dsimp only
          split
          · exact h
          · split <;> exact h
  | binding preview operationId => exact hchange _ _
  | deleting preview operationId => exact hchange _ _
  | fetching mapping =>
      show Distinct (s.fetch env mapping).1.mappings
        ∧ Distinct (s.fetch env mapping).1.file
      unfold Panel.fetch
      split
      · exact h
      · split
        · exact h
        · split <;> exact h
  | completing mapping job => exact howned _ _ fun _ => hchange _ _
  | previewing mapping goal step =>
      show Distinct (s.preview c env mapping goal step).1.mappings
        ∧ Distinct (s.preview c env mapping goal step).1.file
      unfold Panel.preview
      cases step with
      | inspecting =>
          dsimp only
          split <;> exact h
      | listing => exact h
      | materializing listed =>
          dsimp only
          split
          · exact h
          · split
            · cases goal with
              | apply replacing => exact h
              | retry jobId =>
                  unfold Panel.previewed
                  dsimp only
                  split <;> exact h
            · exact h
  | inventory mapping replacing =>
      show Distinct (Panel.resume c s (.inventory mapping replacing)
          env).1.mappings
        ∧ Distinct (Panel.resume c s (.inventory mapping replacing) env).1.file
      unfold Panel.resume
      dsimp only
      split <;> exact h
  | enqueueing mapping replacing config =>
      refine howned _ _ fun operationId => ?_
      dsimp only
      split
      · exact henqueued _ _ _ _ _ h
      · exact h
  | awaiting mapping replacing config ticket =>
      show Distinct (s.await mapping replacing config ticket).1.mappings
        ∧ Distinct (s.await mapping replacing config ticket).1.file
      unfold Panel.await
      split
      · exact henqueued _ _ _ _ _ h
      · exact henqueued _ _ _ _ _ h
      · exact h
  | attaching mapping replacing config job =>
      refine howned _ _ fun operationId => ?_
      split
      · exact h
      · exact hchange _ _

/-- In every run the mappings are distinct, in memory and in the file. -/
theorem distinct_run (file : List Mapping) (jobs : List Job)
    (hfile : Distinct file) (events : List MappingEvent) :
    Distinct ((protocol c).machine.run (started file jobs)
      events).shared.mappings := by
  have hkeeps : (protocol c).Keeps (fun _ _ => True)
      (fun s => Distinct s.mappings ∧ Distinct s.file)
      (fun _ _ => True) := by
    refine ⟨fun _ _ _ _ => trivial, fun f id env k _ _ hs _ => ?_,
      fun f x _ hs => ?_, fun f _ hs => ⟨hs.2, hs.2⟩⟩
    · exact ⟨resume_distinct f.shared k env hs, fun _ _ => trivial,
        fun _ _ => trivial⟩
    · refine ⟨?_, fun _ _ => trivial⟩
      cases x <;> exact hs
  have hall : (protocol c).machine.Allowed (fun _ _ => True)
      (started file jobs) events :=
    Machine.allowed_of_forall _ (fun _ _ => trivial) _ events
  exact (Protocol.keeps_run hkeeps hall
    (Protocol.sound_fresh ⟨hfile, hfile⟩)).shared.1

-- ====== configuration

variable {mappings : List Mapping} {mapping : Mapping}
  {config : Configuration} {operationId : Reference} {env : Env}

variable {serverId : Uuid} {certificates : CertificateLookups}
  {materials : Materials} {replacing : Option Reference}

theorem mem_listMappings :
    mapping ∈ listMappings serverId mappings
      ↔ mapping ∈ mappings ∧ mapping.serverId = serverId
        ∧ (mapping.phase.isPending = true ∨ mapping.phase = .active) := by
  unfold listMappings
  rw [List.mem_insertionSort, List.mem_filter, Bool.and_eq_true, beq_iff_eq]
  cases mapping.phase <;> simp [Phase.isPending]

/-- What is made of a mapping is what it shows. -/
theorem materializeMapping_fst {made : PublicMapping × NginxMapping}
    (h : materializeMapping certificates mapping = .ok made) :
    made.1 = mapping.shown := by
  unfold materializeMapping at h
  obtain ⟨_, -, h⟩ := bind_eq_ok.mp h
  obtain ⟨_, -, h⟩ := bind_eq_ok.mp h
  obtain ⟨_, -, h⟩ := bind_eq_ok.mp h
  obtain ⟨_, -, h⟩ := bind_eq_ok.mp h
  obtain ⟨_, -, h⟩ := bind_eq_ok.mp h
  obtain ⟨_, -, h⟩ := bind_eq_ok.mp h
  rw [← Except.ok.inj h]

theorem materializeMapping_all {made : List (PublicMapping × NginxMapping)}
    (h : mappings.mapM (materializeMapping certificates) = .ok made) :
    made.map Prod.fst = mappings.map Mapping.shown := by
  have hall := mapM_eq_ok_iff.mp h
  clear h
  induction hall with
  | nil => rfl
  | cons hfirst _ ih =>
      rw [List.map_cons, List.map_cons, materializeMapping_fst hfirst, ih]

/-- A configuration shows the mappings it is made of. -/
theorem materializeCurrent_mappings
    (h : materializeCurrent c materials serverId mappings = .ok config) :
    config.mappings.Perm (mappings.map Mapping.shown) := by
  unfold materializeCurrent at h
  obtain ⟨_, -, h⟩ := bind_eq_ok.mp h
  obtain ⟨_, -, h⟩ := bind_eq_ok.mp h
  obtain ⟨⟨publicMappings, nginxMappings⟩, hmappings, h⟩ := bind_eq_ok.mp h
  obtain ⟨_, -, h⟩ := bind_eq_ok.mp h
  unfold materializeMappings at hmappings
  obtain ⟨made, hmade, hmappings⟩ := bind_eq_ok.mp hmappings
  obtain ⟨hpublic, -⟩ := Prod.mk.inj (Except.ok.inj hmappings)
  rw [← Except.ok.inj h, ← materializeMapping_all hmade]
  show publicMappings.Perm _
  rw [← hpublic]
  exact List.perm_insertionSort _ _

/-- Distinct mappings show something distinct. -/
theorem nodup_shown (h : Distinct mappings) :
    ((listMappings serverId mappings).map Mapping.shown).Nodup := by
  have hids : ((mappings.map Mapping.shown).map PublicMapping.id).Nodup := by
    rw [List.map_map]
    exact h.ids
  have hperm : (listMappings serverId mappings).Perm (mappings.filter _) :=
    List.perm_insertionSort _ _
  rw [(hperm.map Mapping.shown).nodup_iff]
  exact (List.filter_sublist.map Mapping.shown).nodup (hids.of_map _)

/-- A configuration of the mappings as they are fulfils what the operation
of one of them wants. -/
theorem fulfils_of_current (hdistinct : Distinct mappings)
    (hmem : mapping ∈ mappings) (hflight : mapping.phase.inFlight = true)
    (h : materializeCurrent c materials mapping.serverId
      (listMappings mapping.serverId mappings) = .ok config) :
    config.fulfils mapping = true := by
  have hperm := materializeCurrent_mappings h
  unfold Configuration.fulfils
  cases hphase : mapping.phase with
  | pending operationId evidence =>
      show config.includes mapping = true
      have hlisted : mapping ∈ listMappings mapping.serverId mappings :=
        mem_listMappings.mpr ⟨hmem, rfl, .inl (by rw [hphase]; rfl)⟩
      have hnodup : config.mappings.Nodup := by
        rw [hperm.nodup_iff]
        exact nodup_shown hdistinct
      have hcount := List.count_eq_one_of_mem hnodup
        (hperm.mem_iff.mpr (List.mem_map_of_mem hlisted))
      unfold Configuration.includes
      rw [← List.count_eq_length_filter, hcount]
      rfl
  | active => rw [hphase] at hflight; cases hflight
  | removing operationId evidence =>
      show config.excludes mapping = true
      have hkey : ∀ {other : Mapping} {κ : Type} (key : Mapping → κ),
          (mappings.map key).Nodup → other ∈ mappings →
            key other = key mapping → other = mapping := by
        intro other κ key hnodup hother heq
        exact List.inj_on_of_nodup_map hnodup hother hmem heq
      unfold Configuration.excludes
      rw [Bool.not_eq_true', List.any_eq_false]
      intro shown hshown
      obtain ⟨other, hother, rfl⟩ :=
        List.mem_map.mp (hperm.mem_iff.mp hshown)
      obtain ⟨hother, -, hlisted⟩ := mem_listMappings.mp hother
      have hne : other ≠ mapping := by
        rintro rfl
        rw [hphase] at hlisted
        rcases hlisted with hlisted | hlisted <;> cases hlisted
      simp only [Bool.or_eq_true, beq_iff_eq, not_or]
      exact ⟨⟨fun heq => hne (hkey Mapping.id hdistinct.ids hother heq),
        fun heq => hne (hkey _ hdistinct.mailDomains hother heq)⟩,
        fun heq => hne (hkey _ hdistinct.hostnames hother heq)⟩
  | removed operationId evidence => rw [hphase] at hflight; cases hflight

-- ====== jobs

/-- Nothing is wrong with the payload of an apply job. -/
theorem applyEnvelopeError_payload (mapping : Mapping)
    (operationId : Reference) (replacing : Option Reference)
    (config : Configuration) :
    applyEnvelopeError
      (applyRequest c mapping operationId replacing config).payload = none := by
  have hpreview := (config.sha256 c.toPlatform).ok
  have hconfig := config.rendered.configSha256.ok
  have hfpm := config.rendered.fpmSha256.ok
  simp [applyEnvelopeError, applyRequest, validateRoundcubeConfigApply,
    Matching.json, hpreview, hconfig, hfpm]

/-- Nor with the request, where its key is one. -/
theorem checkRequest_request (hkey : Jobs.validIdempotencyKey
      (idempotencyKey mapping operationId mapping.previous) = true) :
    Jobs.checkRequest (mapping.request c operationId config)
      = .ok (.roundcubeConfigApply, .server) := by
  have hserver := mapping.serverId.text_ne_empty
  have htype : Text.length "roundcube.config.apply" ≠ 0
      ∧ Text.length "roundcube.config.apply" ≤ 80 := by
    decide
  have hop : Jobs.Operation.ofText? "roundcube.config.apply"
      = some .roundcubeConfigApply := by
    decide
  have hres : Jobs.ResourceType.ofText? "server" = some .server := by decide
  simp [Jobs.checkRequest, Mapping.request, applyRequest, Json.isObject,
    hserver, hkey, htype, hop, hres]

/-- The job an attempt becomes where it is the first of its key. -/
def Mapping.newJob (c : Context) (env : Env) (mapping : Mapping)
    (operationId : Reference) (config : Configuration) : Job :=
  Jobs.newJob c.protocol (mapping.request c operationId config) env.jobId
    env.jobNow .roundcubeConfigApply .server

/-- What the job registry makes of an attempt: the job of its key, or a new
one. -/
theorem enqueue_free (hfree : Free c s mapping operationId config)
    (env : Env) :
    (∃ job ∈ s.jobs.mem,
        job.hasKey (idempotencyKey mapping operationId mapping.previous) = true
          ∧ Jobs.enqueue c.protocol (mapping.request c operationId config)
              env.jobId env.jobNow s.jobs.mem
            = .replied (.enqueued (publicJob job) false))
      ∨ Jobs.enqueue c.protocol (mapping.request c operationId config)
            env.jobId env.jobNow s.jobs.mem
          = .written (s.jobs.mem ++ [mapping.newJob c env operationId config])
              (Jobs.enqueueResult s.jobs.mem.length
                (mapping.newJob c env operationId config)) := by
  have henvelope : c.protocol.createOperationEnvelope env.jobId
      .roundcubeConfigApply (mapping.newJob c env operationId config).payload
      = .ok ⟨env.jobId, .roundcubeConfigApply,
          (mapping.newJob c env operationId config).payload⟩ := by
    have hnone : c.protocol.envelopeError env.jobId .roundcubeConfigApply
        (mapping.newJob c env operationId config).payload = none :=
      applyEnvelopeError_payload mapping operationId mapping.previous config
    unfold Jobs.Protocol.createOperationEnvelope
    rw [hnone]
  have hnotOccupied : s.jobs.mem.any
      (Job.occupies .server mapping.serverId.text) ≠ true := by
    intro hany
    obtain ⟨job, hjob, hoccupies⟩ := List.any_eq_true.mp hany
    rw [hfree.server job hjob] at hoccupies
    cases hoccupies
  unfold Jobs.enqueue
  rw [checkRequest_request hfree.key]
  dsimp only
  unfold Jobs.enqueueChecked
  rw [show (mapping.request c operationId config).idempotencyKey
      = some (idempotencyKey mapping operationId mapping.previous) from rfl,
    Option.bind_some]
  cases hlocate : locate (Job.hasKey
      (idempotencyKey mapping operationId mapping.previous)) s.jobs.mem with
  | some found =>
      obtain ⟨i, job⟩ := found
      have hjob := mem_of_locate hlocate
      have haccepted := accepted_of_locate hlocate
      dsimp only
      rw [if_neg (not_not.mpr (hfree.work job hjob haccepted))]
      exact .inl ⟨job, hjob, haccepted, rfl⟩
  | none =>
      right
      dsimp only
      rw [show (mapping.request c operationId config).resourceId
        = mapping.serverId.text from rfl, if_neg hnotOccupied]
      rw [← Mapping.newJob, henvelope]

-- ====== segments

/-- The mapping of a mail domain, rewritten where it stands. -/
theorem modifyOwned_of_get (stale : Failure)
    (change : Mapping → Except Failure Phase) {phase : Phase}
    (hget : getRecordForMailDomain mapping.mailDomainId mappings = some mapping)
    (hdistinct : Distinct mappings)
    (hop : mapping.phase.operationId? = some operationId)
    (hchange : change mapping = .ok phase) :
    ∃ next, mutate (modifyOwned mapping.mailDomainId operationId stale change)
        mappings = .ok (mapping.withPhase phase, next)
      ∧ getRecordForMailDomain mapping.mailDomainId next
        = some (mapping.withPhase phase) := by
  have hmem := (getRecord_eq_some hget).2
  obtain ⟨i, hi⟩ := List.mem_iff_getElem?.mp hmem
  have hlocate := locate_key hdistinct.mailDomains hi
    (Eq.refl mapping.mailDomainId)
  have hmodify : modifyOwned mapping.mailDomainId operationId stale change
      mappings = .ok (mapping.withPhase phase,
        mappings.set i (mapping.withPhase phase)) := by
    unfold modifyOwned modifyMapping
    rw [hlocate]
    have hensure : ensure stale (mapping.phase.operationId? == some operationId)
        = .ok () := ensure_eq_ok.mpr (by rw [hop]; exact beq_self_eq_true _)
    show (ensure stale (mapping.phase.operationId? == some operationId)
      >>= fun _ => change mapping >>= fun phase =>
        pure (mapping.withPhase phase)) >>= _ = _
    rw [hensure, hchange]
    rfl
  have hkey : ∀ {κ : Type} (key : Mapping → κ),
      key (mapping.withPhase phase) = key mapping →
        (mappings.set i (mapping.withPhase phase)).map key
          = mappings.map key := by
    intro κ key hsame
    have hat : (mappings.map key)[i]? = some (key mapping) := by
      rw [List.getElem?_map, hi]
      rfl
    rw [List.map_set, hsame, set_of_getElem? hat]
  have hset : Distinct (mappings.set i (mapping.withPhase phase)) :=
    ⟨hkey Mapping.id rfl ▸ hdistinct.ids,
      hkey Mapping.mailDomainId rfl ▸ hdistinct.mailDomains,
      hkey Mapping.webDomainId rfl ▸ hdistinct.webDomains,
      hkey Mapping.hostname rfl ▸ hdistinct.hostnames⟩
  have hwrites : Writes mappings (mapping.withPhase phase)
      (mappings.set i (mapping.withPhase phase)) :=
    writes_set hlocate rfl
  refine ⟨mappings.set i (mapping.withPhase phase), ?_, hwrites.self⟩
  unfold mutate validateRelationships
  rw [hmodify]
  show (ensure _ (decide (Distinct (mappings.set i _))) >>= fun _ => pure _) = _
  rw [decide_eq_true hset]
  rfl

/-- A continuation that the mapping allows. -/
theorem enter_current
    (hget : getRecordForMailDomain mapping.mailDomainId s.mappings
      = some mapping) (hflight : mapping.phase.inFlight = true)
    (hop : mapping.phase.operationId? = some operationId) (env : Env) :
    s.enter c env (.continueOperation (continueInput c mapping operationId))
      = if mapping.phase.evidence?.isNone then
          s.goTo (.inventory mapping none)
        else s.goTo (.fetching mapping) := by
  have hactive : mapping.phase ≠ .active := by
    intro hactive
    rw [hactive] at hflight
    cases hflight
  have hconfirm : continueConfirmation c.toPlatform mapping
      = some (c.joined mapping operationId) := by
    unfold continueConfirmation
    rw [if_neg hactive, hop]
    rfl
  have hcheck : checkContinue c.toPlatform
      (continueInput c mapping operationId) s.mappings = .ok mapping := by
    unfold checkContinue continueInput uuid
    simp [hget, hflight, hop, hconfirm, demand, Option.filter]
  unfold Panel.enter
  dsimp only
  rw [hcheck]

/-- The configuration as it is, for whatever it is asked. -/
theorem alone_preview {goal : Goal} {k : Stage}
    (hworks : Works c s env mapping config)
    (hfulfils : config.fulfils mapping = true)
    (hgoal : s.previewed c mapping config goal = s.goTo k)
    (es : List (Env ⊕ JobEvent)) :
    (protocol c).alone s (some (.previewing mapping goal .inspecting))
        (.inl env :: .inl env :: .inl env :: es)
      = (protocol c).alone s (some k) es := by
  have hinspect : (protocol c).resume s
      (.previewing mapping goal .inspecting) env
      = (s, some (.previewing mapping goal .listing), []) := by
    show s.preview c env mapping goal .inspecting = _
    unfold Panel.preview
    dsimp only
    rw [hworks.ready]
    rfl
  have hmaterialize : (protocol c).resume s
      (.previewing mapping goal
        (.materializing (listMappings mapping.serverId s.mappings))) env
      = (s, some k, []) := by
    show s.preview c env mapping goal (.materializing _) = _
    unfold Panel.preview
    dsimp only
    rw [hworks.config]
    dsimp only
    rw [if_pos hfulfils, hgoal]
    rfl
  have hlist : (protocol c).resume s (.previewing mapping goal .listing) env
      = (s, some (.previewing mapping goal
          (.materializing (listMappings mapping.serverId s.mappings))), []) :=
    rfl
  rw [Protocol.alone_next hinspect, Protocol.alone_next hlist,
    Protocol.alone_next hmaterialize]

theorem alone_inventory (hworks : Works c s env mapping config)
    (hidle : NoApply s mapping) (es : List (Env ⊕ JobEvent)) :
    (protocol c).alone s (some (.inventory mapping replacing)) (.inl env :: es)
      = (protocol c).alone s
          (some (.previewing mapping (.apply replacing) .inspecting)) es := by
  have hassert : assertNoConcurrentApply env s.jobs.mem mapping.serverId
      replacing = .ok () := by
    have hnone : s.jobs.mem.any (fun job =>
        job.serverId == mapping.serverId.text
          && some job.id.text != replacing.map Matching.text
          && job.operation == .roundcubeConfigApply && job.status.active)
        = false := by
      rw [List.any_eq_false]
      intro job hjob hconflict
      simp only [Bool.and_eq_true, beq_iff_eq] at hconflict
      have hactive := hidle job hjob hconflict.1.1.1 hconflict.1.2
      rw [hconflict.2] at hactive
      cases hactive
    unfold assertNoConcurrentApply
    rw [hworks.readable, hnone]
    rfl
  have hresume : (protocol c).resume s (.inventory mapping replacing) env
      = (s, some (.previewing mapping (.apply replacing) .inspecting), []) := by
    unfold Protocol.resume protocol Panel.resume
    dsimp only
    rw [hassert]
    rfl
  exact Protocol.alone_next hresume es

/-- The mutation that attaches a job. -/
theorem attach_current (config : Configuration) (job : PublicJob)
    {jobId : Reference} (hwritten : env.written = .landed)
    (hget : getRecordForMailDomain mapping.mailDomainId s.mappings
      = some mapping) (hdistinct : Distinct s.mappings)
    (hop : mapping.phase.operationId? = some operationId)
    (hjob : (Matching.ofText? job.id.text : Option Reference) = some jobId) :
    ∃ next, (protocol c).resume s
          (.attaching mapping mapping.previous config job) env
        = ({ s with mappings := next, file := next }, none, [.returned])
      ∧ getRecordForMailDomain mapping.mailDomainId next
        = some (mapping.withPhase (mapping.phase.attached
          (config.evidence c.toPlatform jobId))) := by
  have hattach : ∀ {operation : List Mapping →
        Except Failure (Mapping × List Mapping)} {new : Mapping}
      {next : List Mapping}, mutate operation s.mappings = .ok (new, next) →
        s.change env [] operation
          = ({ s with mappings := next, file := next }, none, [.returned]) := by
    intro operation new next hmutate
    unfold Panel.change
    rw [hmutate, hwritten]
    rfl
  cases hevidence : mapping.phase.evidence? with
  | none =>
      obtain ⟨next, hmutate, hnext⟩ := modifyOwned_of_get
        (operationStale "operation is stale")
        (fun current => do
          ensure (refuse "roundcube_mapping_apply_job_conflict"
              ("Roundcube Domain mapping already references another apply job")
              409)
            (current.phase.evidence?.all
              (· == config.evidence c.toPlatform jobId))
          return current.phase.attached (config.evidence c.toPlatform jobId))
        hget hdistinct hop (by rw [hevidence]; rfl)
      refine ⟨next, ?_, hnext⟩
      have hprevious : mapping.previous = none := by
        unfold Mapping.previous
        rw [hevidence]
        rfl
      show s.attach c env mapping mapping.previous config job = _
      unfold Panel.attach Panel.owned
      rw [hop, hprevious]
      dsimp only
      rw [hjob]
      exact hattach hmutate
  | some evidence =>
      have hprevious : mapping.previous = some evidence.jobId := by
        unfold Mapping.previous
        rw [hevidence]
        rfl
      obtain ⟨next, hmutate, hnext⟩ := modifyOwned_of_get
        (operationStale "retry operation is stale")
        (fun current => do
          ensure (operationStale "retry operation is stale")
            (current.phase.evidence?.map Evidence.jobId
              == some evidence.jobId)
          return current.phase.attached (config.evidence c.toPlatform jobId))
        hget hdistinct hop (by
          rw [hevidence]
          show (ensure _ (some evidence.jobId == some evidence.jobId)
            >>= fun _ => _) = _
          rw [beq_self_eq_true]
          rfl)
      refine ⟨next, ?_, hnext⟩
      show s.attach c env mapping mapping.previous config job = _
      unfold Panel.attach Panel.owned
      rw [hop, hprevious]
      dsimp only
      rw [hjob]
      exact hattach hmutate

-- ====== attempts

/-- What has been attached stays while nothing but writes of the jobs
settle. -/
theorem alone_over (es : List (Env ⊕ JobEvent))
    (hes : ∀ e ∈ es, (∃ env, e = .inl env) ∨ e = .inr (.settle true)) :
    ∃ jobs, (protocol c).alone s none es = ({ s with jobs }, none, [])
      ∧ jobs.mem = s.jobs.mem := by
  induction es generalizing s with
  | nil => exact ⟨s.jobs, Protocol.alone_nil s none, rfl⟩
  | cons e es ih =>
      rw [List.forall_mem_cons] at hes
      rcases hes.1 with ⟨env, rfl⟩ | rfl
      · rw [Protocol.alone_none]
        exact ih hes.2
      · obtain ⟨jobs, hjobs, hmem⟩ :=
          ih (s := (protocol c).world s (.settle true)) hes.2
        rw [Protocol.alone_world, hjobs]
        refine ⟨jobs, rfl, hmem.trans ?_⟩
        exact Desk.settle_mem .store true s.jobs

/-- The writes on their way settle. -/
theorem alone_settles (n : Nat) (k : Option Stage)
    (es : List (Env ⊕ JobEvent)) :
    (protocol c).alone s k
        (List.replicate n (.inr (.settle true)) ++ es)
      = (protocol c).alone { s with jobs := s.jobs.drain .store n } k es := by
  induction n generalizing s with
  | zero => rfl
  | succ n ih =>
      rw [List.replicate_succ, List.cons_append, Protocol.alone_world]
      exact ih

/-- The job an attempt is for: of the registry, with its key, and for its
work. -/
structure IsJob (c : Context) (jobs : List Job) (mapping : Mapping)
    (operationId : Reference) (config : Configuration) (job : Job) :
    Prop where
  mem : job ∈ jobs
  key : job.hasKey (idempotencyKey mapping operationId mapping.previous) = true
  work : job.idempotencyDigest = Jobs.requestDigest c.protocol
    (mapping.request c operationId config)

/-- An identifier of a job is a reference. -/
theorem exists_reference (id : Uuid) :
    ∃ jobId : Reference, Matching.ofText? id.text = some jobId
      ∧ id.text = jobId.text := by
  have hhex : ∀ ch, Text.isHex ch = true →
      (Text.isKeyChar ch || ch == '@') = true := by
    intro ch hch
    rw [Text.isKeyChar_of_isHex hch]
    rfl
  have hok : isReference id.text = true := by
    show Text.inClass (fun ch => Text.isKeyChar ch || ch == '@') 8 160
      id.text = true
    exact id.inClass_text hhex rfl (by omega) (by omega)
  exact ⟨⟨id.text, hok⟩, Matching.ofText?_text ⟨id.text, hok⟩, rfl⟩

/-- A call that has its job attaches it, whatever writes of the jobs settle
before. -/
theorem alone_attaching {job : Job} (hwritten : env.written = .landed)
    (hget : getRecordForMailDomain mapping.mailDomainId s.mappings
      = some mapping) (hdistinct : Distinct s.mappings)
    (hop : mapping.phase.operationId? = some operationId)
    (hjob : IsJob c s.jobs.mem mapping operationId config job)
    (es : List (Env ⊕ JobEvent))
    (hes : ∀ e ∈ es, e = .inl env ∨ e = .inr (.settle true))
    (hmem : .inl env ∈ es) :
    Attached c ((protocol c).alone s (some (.attaching mapping
      mapping.previous config (publicJob job))) es).1 mapping operationId
        config := by
  induction es generalizing s with
  | nil => cases hmem
  | cons e es ih =>
      rw [List.forall_mem_cons] at hes
      rcases hes.1 with rfl | rfl
      · obtain ⟨jobId, hread, hid⟩ := exists_reference job.id
        obtain ⟨next, hattach, hnext⟩ := attach_current (c := c) config
          (publicJob job) hwritten hget hdistinct hop hread
        obtain ⟨jobs, hover, hjobs⟩ := alone_over (c := c)
          (s := { s with mappings := next, file := next }) es
          fun e he => (hes.2 e he).imp (fun h => ⟨env, h⟩) fun h => h
        rw [Protocol.alone_notes hattach, hover]
        refine ⟨jobId, hnext, job, ?_, hid, hjob.key, hjob.work⟩
        show job ∈ jobs.mem
        rw [hjobs]
        exact hjob.mem
      · have hsettled : ((protocol c).world s (.settle true)).jobs.mem
            = s.jobs.mem := by
          show (s.jobs.settle .store true).mem = s.jobs.mem
          exact Desk.settle_mem .store true s.jobs
        rw [Protocol.alone_world]
        refine ih hget hdistinct ⟨?_, hjob.key, hjob.work⟩ hes.2 ?_
        · rw [hsettled]
          exact hjob.mem
        · rcases List.mem_cons.mp hmem with h | h
          · cases h
          · exact h

/-- A call that waits for a write waits until it settles. -/
theorem alone_awaiting {n : Nat} (h : s.jobs.collect n = none) (env : Env)
    (m : Nat) (es : List (Env ⊕ JobEvent)) :
    (protocol c).alone s (some (.awaiting mapping replacing config n))
        (List.replicate m (.inl env) ++ es)
      = (protocol c).alone s (some (.awaiting mapping replacing config n))
          es := by
  have hwait : (protocol c).resume s
      (.awaiting mapping replacing config n) env
      = (s, some (.awaiting mapping replacing config n), []) := by
    show s.await mapping replacing config n = _
    unfold Panel.await
    rw [h]
    rfl
  induction m with
  | zero => rfl
  | succ m ih =>
      rw [List.replicate_succ, List.cons_append, Protocol.alone_next hwait, ih]

/-- An attempt that gets as far as its job attaches it. -/
theorem alone_enqueueing (hworks : Works c s env mapping config)
    (hget : getRecordForMailDomain mapping.mailDomainId s.mappings
      = some mapping) (hdistinct : Distinct s.mappings)
    (hop : mapping.phase.operationId? = some operationId)
    (hfree : Free c s mapping operationId config) (m : Nat) :
    Attached c ((protocol c).alone s
      (some (.enqueueing mapping mapping.previous config))
      (.inl env :: (List.replicate m (.inl env)
        ++ (List.replicate (s.jobs.store.queue.length + 1)
            (.inr (.settle true))
          ++ List.replicate 2 (.inl env))))).1 mapping operationId config := by
  have htold : ∀ {answer}, (s.jobs.ask (Jobs.enqueue c.protocol
        (mapping.request c operationId config) env.jobId env.jobNow)).2
        = .told answer →
      (protocol c).resume s (.enqueueing mapping mapping.previous config) env
        = Panel.enqueued { s with jobs := (s.jobs.ask (Jobs.enqueue c.protocol
            (mapping.request c operationId config) env.jobId env.jobNow)).1 }
          mapping mapping.previous config answer := by
    intro answer hanswer
    show s.enqueue c env mapping mapping.previous config = _
    unfold Mapping.request at *
    unfold Panel.enqueue Panel.owned
    rw [hop]
    dsimp only
    rw [hanswer]
  have hwait : ∀ {n}, (s.jobs.ask (Jobs.enqueue c.protocol
        (mapping.request c operationId config) env.jobId env.jobNow)).2
        = .ticket n →
      (protocol c).resume s (.enqueueing mapping mapping.previous config) env
        = Panel.goTo { s with jobs := (s.jobs.ask (Jobs.enqueue c.protocol
            (mapping.request c operationId config) env.jobId env.jobNow)).1 }
          (.awaiting mapping mapping.previous config n) := by
    intro n hanswer
    show s.enqueue c env mapping mapping.previous config = _
    unfold Mapping.request at *
    unfold Panel.enqueue Panel.owned
    rw [hop]
    dsimp only
    rw [hanswer]
  rcases enqueue_free hfree env with ⟨job, hjob, hkey, henqueue⟩ | henqueue
  · -- The job of the key is handed out, and nothing is written.
    have hask : s.jobs.ask (Jobs.enqueue c.protocol
        (mapping.request c operationId config) env.jobId env.jobNow)
        = (s.jobs, .told (.ok (.enqueued (publicJob job) false))) := by
      unfold Desk.ask Store.call Desk.mem at *
      rw [henqueue]
      rfl
    have hresume := htold (congrArg Prod.snd hask)
    rw [hask] at hresume
    rw [Protocol.alone_next hresume]
    refine alone_attaching hworks.written hget hdistinct hop
      ⟨hjob, hkey, hfree.work job hjob hkey⟩ _ ?_ ?_
    · intro e he
      rcases List.mem_append.mp he with he | he
      · exact .inl (List.eq_of_mem_replicate he)
      · rcases List.mem_append.mp he with he | he
        · exact .inr (List.eq_of_mem_replicate he)
        · exact .inl (List.eq_of_mem_replicate he)
    · simp
  · -- The job is new, and its write settles after those before it.
    have hmem : (s.jobs.ask (Jobs.enqueue c.protocol
        (mapping.request c operationId config) env.jobId env.jobNow)).1.mem
        = s.jobs.mem ++ [mapping.newJob c env operationId config] := by
      rw [Desk.ask_mem, henqueue]
      rfl
    have hticket : (s.jobs.ask (Jobs.enqueue c.protocol
        (mapping.request c operationId config) env.jobId env.jobNow)).2
        = .ticket (s.jobs.settled.length + s.jobs.store.queue.length) := by
      unfold Desk.ask
      rw [henqueue]
      rfl
    have hcollect := Desk.collect_drain .store hworks.unbroken henqueue
    have hlater : (s.jobs.ask (Jobs.enqueue c.protocol
        (mapping.request c operationId config) env.jobId
        env.jobNow)).1.collect
          (s.jobs.settled.length + s.jobs.store.queue.length) = none :=
      List.getElem?_eq_none (Nat.le_add_right _ _)
    have hreply : Jobs.enqueueResult s.jobs.mem.length
        (mapping.newJob c env operationId config)
        (s.jobs.mem ++ [mapping.newJob c env operationId config])
        = .ok (.enqueued
            (publicJob (mapping.newJob c env operationId config)) true) := by
      simp [Jobs.enqueueResult]
    rw [Protocol.alone_next (hwait hticket), alone_awaiting (c := c)
      (s := { s with jobs := (s.jobs.ask (Jobs.enqueue c.protocol
        (mapping.request c operationId config) env.jobId
        env.jobNow)).1 }) hlater, alone_settles]
    have hresume : (protocol c).resume
        { s with jobs := ((s.jobs.ask (Jobs.enqueue c.protocol
          (mapping.request c operationId config) env.jobId
          env.jobNow)).1).drain .store (s.jobs.store.queue.length + 1) }
        (.awaiting mapping mapping.previous config
          (s.jobs.settled.length + s.jobs.store.queue.length)) env
        = ({ s with jobs := ((s.jobs.ask (Jobs.enqueue c.protocol
            (mapping.request c operationId config) env.jobId
            env.jobNow)).1).drain .store (s.jobs.store.queue.length + 1) },
          some (.attaching mapping mapping.previous config
            (publicJob (mapping.newJob c env operationId config))), []) := by
      show Panel.await _ mapping mapping.previous config _ = _
      unfold Panel.await
      dsimp only
      rw [hcollect, hreply]
      rfl
    rw [List.replicate_succ, Protocol.alone_next hresume]
    refine alone_attaching (c := c)
      (s := { s with
        jobs := Desk.drain Jobs.Failure.store
          (s.jobs.store.queue.length + 1) (s.jobs.ask (Jobs.enqueue c.protocol
            (mapping.request c operationId config) env.jobId env.jobNow)).1 })
      hworks.written hget hdistinct hop ⟨?_, ?_, rfl⟩ _
      (fun e he => .inl (List.eq_of_mem_replicate he))
      (List.mem_replicate.mpr ⟨Nat.one_ne_zero, rfl⟩)
    · show _ ∈ (Desk.drain Jobs.Failure.store _ _).mem
      rw [Desk.drain_mem, hmem]
      exact List.mem_append_right _ (List.mem_singleton_self _)
    · exact beq_self_eq_true _

/-- Looking at the configuration again, and asking for it to be applied. -/
theorem alone_apply (hworks : Works c s env mapping config)
    (hfulfils : config.fulfils mapping = true) (hidle : NoApply s mapping)
    (hget : getRecordForMailDomain mapping.mailDomainId s.mappings
      = some mapping) (hdistinct : Distinct s.mappings)
    (hop : mapping.phase.operationId? = some operationId)
    (hfree : Free c s mapping operationId config) (m : Nat) :
    Attached c ((protocol c).alone s
      (some (.inventory mapping mapping.previous))
      (List.replicate (5 + m) (.inl env)
        ++ (List.replicate (s.jobs.store.queue.length + 1)
            (.inr (.settle true))
          ++ List.replicate 2 (.inl env)))).1 mapping operationId config := by
  rw [List.replicate_add, List.append_assoc]
  show Attached c ((protocol c).alone s _
    (.inl env :: .inl env :: .inl env :: .inl env :: .inl env
      :: (List.replicate m (.inl env) ++ _))).1 _ _ _
  rw [alone_inventory hworks hidle, alone_preview hworks hfulfils rfl]
  exact alone_enqueueing hworks hget hdistinct hop hfree m

/-- Looking at the configuration again where the job of the mapping has
failed. -/
theorem alone_retry {evidence : Evidence}
    (hworks : Works c s env mapping config)
    (hfulfils : config.fulfils mapping = true)
    (hevidence : mapping.phase.evidence? = some evidence)
    (es : List (Env ⊕ JobEvent)) :
    (config.evidence c.toPlatform evidence.jobId = evidence →
        (protocol c).alone s
            (some (.previewing mapping (.retry evidence.jobId) .inspecting))
            (.inl env :: .inl env :: .inl env :: es)
          = (protocol c).alone s
            (some (.inventory mapping (some evidence.jobId))) es)
      ∧ (config.evidence c.toPlatform evidence.jobId ≠ evidence →
        (protocol c).resume s (.previewing mapping (.retry evidence.jobId)
            (.materializing (listMappings mapping.serverId s.mappings))) env
          = (s, none, [.rejected retryDrift])) := by
  have hsame : config.evidence c.toPlatform evidence.jobId = evidence
      ↔ config.sha256 c.toPlatform = evidence.previewSha256
        ∧ config.rendered.nginxSha256 = evidence.nginxSha256 := by
    constructor
    · intro h
      rw [← h]
      exact ⟨rfl, rfl⟩
    · rintro ⟨hpreview, hnginx⟩
      unfold Configuration.evidence
      rw [hpreview, hnginx]
  refine ⟨fun h => alone_preview hworks hfulfils ?_ es, fun h => ?_⟩
  · unfold Panel.previewed
    dsimp only
    rw [hevidence, Option.any_some, if_pos]
    simpa using hsame.mp h
  · show s.preview c env mapping (.retry evidence.jobId) (.materializing _)
      = _
    unfold Panel.preview
    dsimp only
    rw [hworks.config]
    dsimp only
    rw [if_pos hfulfils]
    unfold Panel.previewed
    dsimp only
    rw [hevidence, Option.any_some, if_neg]
    · rfl
    · intro hall
      refine h (hsame.mpr ?_)
      simpa using hall

-- ====== outcomes

/-- What a continuation comes to: a mapping without a job gets one, a
mapping whose job is not to be found gets none, and one whose job has
failed gets another where the configuration is still that of the job. -/
structure Outcomes (c : Context) (f : Flight Panel Stage) (env : Env)
    (mapping : Mapping) (operationId : Reference) (config : Configuration) :
    Prop where
  first : mapping.phase.evidence? = none →
    Free c f.shared mapping operationId config →
      Attached c ((protocol c).machine.run f
        (continuation c f env mapping operationId)).shared mapping
        operationId config
  missing : ∀ evidence ∈ mapping.phase.evidence?,
    Jobs.findJob f.shared.jobs.mem evidence.jobId.text = none →
      Refused c f (continuation c f env mapping operationId) jobMissing
  again : ∀ evidence ∈ mapping.phase.evidence?,
    ∀ job ∈ Jobs.findJob f.shared.jobs.mem evidence.jobId.text,
      job.status = .failed ∨ job.status = .cancelled →
        config.evidence c.toPlatform evidence.jobId = evidence →
          Free c f.shared mapping operationId config →
            Attached c ((protocol c).machine.run f
              (continuation c f env mapping operationId)).shared mapping
              operationId config
  drifted : ∀ evidence ∈ mapping.phase.evidence?,
    ∀ job ∈ Jobs.findJob f.shared.jobs.mem evidence.jobId.text,
      job.status = .failed ∨ job.status = .cancelled →
        config.evidence c.toPlatform evidence.jobId ≠ evidence →
          Refused c f (continuation c f env mapping operationId) retryDrift

/-- A continuation is its call on its own. -/
theorem run_continuation (f : Flight Panel Stage) (env : Env)
    (mapping : Mapping) (operationId : Reference) :
    ((protocol c).machine.run f
        (continuation c f env mapping operationId)).shared
        = ((protocol c).alone f.shared (some (.entered (.continueOperation
          (continueInput c mapping operationId))))
          (soloTurns f.shared.jobs.store.queue.length env)).1
      ∧ (protocol c).notes f (continuation c f env mapping operationId)
        = ((protocol c).alone f.shared (some (.entered (.continueOperation
          (continueInput c mapping operationId))))
          (soloTurns f.shared.jobs.store.queue.length env)).2.2.map
            fun note => (f.calls.length, note) := by
  have hrun := Protocol.run_alone (p := protocol c) f.shared f.calls
    (some (.entered (.continueOperation
      (continueInput c mapping operationId))))
    (soloTurns f.shared.jobs.store.queue.length env)
  have hquiet : ∀ call, (protocol c).machine.answer f (.start call) = [] :=
    fun _ => rfl
  unfold continuation
  refine ⟨?_, ?_⟩
  · rw [Machine.run_cons, Protocol.next_start]
    exact congrArg Flight.shared hrun.1
  · rw [Protocol.notes, Machine.answers_cons, Protocol.next_start, hquiet,
      List.flatten_cons, List.nil_append]
    exact hrun.2

/-- A call that is rejected changes nothing, whatever writes of the jobs
settle after. -/
theorem refused_of_alone {f : Flight Panel Stage} {e : Failure}
    {jobs : Desk (List Job) Jobs.Failure Jobs.Reply}
    (h : (protocol c).alone f.shared (some (.entered (.continueOperation
        (continueInput c mapping operationId))))
        (soloTurns f.shared.jobs.store.queue.length env)
      = ({ f.shared with jobs }, none, [.rejected e]))
    (hjobs : jobs.mem = f.shared.jobs.mem) :
    Refused c f (continuation c f env mapping operationId) e := by
  obtain ⟨hshared, hnotes⟩ := run_continuation (c := c) f env mapping
    operationId
  rw [h] at hshared hnotes
  refine ⟨?_, ?_, ?_, ?_⟩
  · rw [hnotes]
    exact List.mem_singleton_self _
  · rw [hshared]
  · rw [hshared]
  · rw [hshared]
    exact hjobs

/-- In every state of a run, a continuation of a mapping in flight comes to
what is said of it. -/
theorem continuation_outcomes (c : Context) (file : List Mapping)
    (jobs : List Job) (events : List MappingEvent) (hfile : Distinct file)
    (mapping : Mapping) (operationId : Reference) (env : Env)
    (config : Configuration)
    (h : Continuable ((protocol c).machine.run (started file jobs) events)
      mapping operationId)
    (hworks : Works c ((protocol c).machine.run (started file jobs)
      events).shared env mapping config)
    (hidle : NoApply ((protocol c).machine.run (started file jobs)
      events).shared mapping) :
    Outcomes c ((protocol c).machine.run (started file jobs) events) env
      mapping operationId config := by
  have hdistinct := distinct_run (c := c) file jobs hfile events
  revert h hworks hidle hdistinct
  generalize (protocol c).machine.run (started file jobs) events = f
  intro h hworks hidle hdistinct
  have hget := h.stored
  have hop := h.operation
  have hfulfils := fulfils_of_current hdistinct
    (getRecord_eq_some hget).2 h.inFlight hworks.config
  obtain ⟨hshared, -⟩ := run_continuation (c := c) f env mapping operationId
  have henter := enter_current (c := c) hget h.inFlight hop env
  have hover : ∀ n, ∃ jobs, (protocol c).alone f.shared none
      (List.replicate n (.inl env)
        ++ (List.replicate (f.shared.jobs.store.queue.length + 1)
            (.inr (.settle true))
          ++ List.replicate 2 (.inl env)))
        = ({ f.shared with jobs }, none, [])
      ∧ jobs.mem = f.shared.jobs.mem := by
    intro n
    refine alone_over _ fun e he => ?_
    rcases List.mem_append.mp he with he | he
    · exact .inl ⟨env, List.eq_of_mem_replicate he⟩
    · rcases List.mem_append.mp he with he | he
      · exact .inr (List.eq_of_mem_replicate he)
      · exact .inl ⟨env, List.eq_of_mem_replicate he⟩
  -- The first segments, where the mapping has a job.
  have hfetching : ∀ evidence, mapping.phase.evidence? = some evidence →
      (protocol c).resume f.shared (.entered (.continueOperation
          (continueInput c mapping operationId))) env
        = (f.shared, some (.fetching mapping), []) := by
    intro evidence hevidence
    show f.shared.enter c env (.continueOperation
      (continueInput c mapping operationId)) = _
    rw [henter, hevidence]
    rfl
  have hretrying : ∀ evidence, mapping.phase.evidence? = some evidence →
      ∀ job, Jobs.findJob f.shared.jobs.mem evidence.jobId.text = some job →
        job.status = .failed ∨ job.status = .cancelled →
          (protocol c).resume f.shared (.fetching mapping) env
            = (f.shared, some (.previewing mapping (.retry evidence.jobId)
                .inspecting), []) := by
    intro evidence hevidence job hjob hstatus
    have hfor : jobFor env f.shared.jobs.mem evidence.jobId
        = .ok (publicJob job) := by
      unfold jobFor
      rw [hworks.readable, hjob]
      rfl
    show f.shared.fetch env mapping = _
    unfold Panel.fetch
    rw [hevidence]
    dsimp only
    rw [hfor]
    dsimp only
    have hpublic : (publicJob job).status = job.status := rfl
    rw [hpublic]
    rcases hstatus with hstatus | hstatus <;> rw [hstatus] <;> rfl
  refine ⟨fun hnone hfree => ?_, fun evidence hevidence hmissing => ?_,
    fun evidence hevidence job hjob hstatus hsame hfree => ?_,
    fun evidence hevidence job hjob hstatus hdrift => ?_⟩
  · have hprevious : mapping.previous = none := by
      unfold Mapping.previous
      rw [hnone]
      rfl
    have hstep : (protocol c).resume f.shared (.entered (.continueOperation
        (continueInput c mapping operationId))) env
        = (f.shared, some (.inventory mapping mapping.previous), []) := by
      show f.shared.enter c env (.continueOperation
        (continueInput c mapping operationId)) = _
      rw [henter, hnone, hprevious]
      rfl
    rw [hshared]
    unfold soloTurns
    rw [List.append_assoc, List.replicate_succ, List.cons_append,
      Protocol.alone_next hstep]
    exact alone_apply hworks hfulfils hidle hget hdistinct hop hfree 4
  · have hfor : jobFor env f.shared.jobs.mem evidence.jobId
        = .error jobMissing := by
      unfold jobFor
      rw [hworks.readable, hmissing]
      rfl
    have hstep : (protocol c).resume f.shared (.fetching mapping) env
        = (f.shared, none, [.rejected jobMissing]) := by
      show f.shared.fetch env mapping = _
      unfold Panel.fetch
      rw [hevidence]
      dsimp only
      rw [hfor]
      rfl
    obtain ⟨jobs, hafter, hjobs⟩ := hover 8
    refine refused_of_alone ?_ hjobs
    unfold soloTurns
    rw [List.append_assoc, List.replicate_succ, List.cons_append,
      Protocol.alone_next (hfetching evidence hevidence),
      List.replicate_succ, List.cons_append, Protocol.alone_notes hstep,
      hafter]
    rfl
  · have hprevious : mapping.previous = some evidence.jobId := by
      unfold Mapping.previous
      rw [hevidence]
      rfl
    rw [hshared]
    unfold soloTurns
    rw [List.append_assoc, List.replicate_succ, List.cons_append,
      Protocol.alone_next (hfetching evidence hevidence),
      List.replicate_succ, List.cons_append,
      Protocol.alone_next (hretrying evidence hevidence job hjob hstatus)]
    show Attached c ((protocol c).alone f.shared _
      (.inl env :: .inl env :: .inl env
        :: (List.replicate (5 + 0) (.inl env) ++ _))).1 _ _ _
    rw [(alone_retry hworks hfulfils hevidence _).1 hsame, ← hprevious]
    exact alone_apply hworks hfulfils hidle hget hdistinct hop hfree 0
  · obtain ⟨jobs, hafter, hjobs⟩ := hover 5
    refine refused_of_alone ?_ hjobs
    unfold soloTurns
    rw [List.append_assoc, List.replicate_succ, List.cons_append,
      Protocol.alone_next (hfetching evidence hevidence),
      List.replicate_succ, List.cons_append,
      Protocol.alone_next (hretrying evidence hevidence job hjob hstatus)]
    have hinspect : (protocol c).resume f.shared
        (.previewing mapping (.retry evidence.jobId) .inspecting) env
        = (f.shared, some (.previewing mapping (.retry evidence.jobId)
            .listing), []) := by
      show f.shared.preview c env mapping _ .inspecting = _
      unfold Panel.preview
      dsimp only
      rw [hworks.ready]
      rfl
    have hlist : (protocol c).resume f.shared
        (.previewing mapping (.retry evidence.jobId) .listing) env
        = (f.shared, some (.previewing mapping (.retry evidence.jobId)
            (.materializing (listMappings mapping.serverId
              f.shared.mappings))), []) :=
      rfl
    have hrefuse := (alone_retry hworks hfulfils hevidence
      []).2 hdrift
    show (protocol c).alone f.shared _ (.inl env :: .inl env :: .inl env
      :: (List.replicate 5 (.inl env) ++ _)) = _
    rw [Protocol.alone_next hinspect, Protocol.alone_next hlist,
      Protocol.alone_notes hrefuse, hafter]
    rfl

section Samples

/-- A mapping whose deletion has begun, with nothing else under way. -/
def sampleBegun : List MappingEvent :=
  .start sampleDelete :: sampleTurns 0 2

def sampleRemoving : Mapping :=
  { sampleMapping with
    revision := ⟨2, Ranged.two_ok⟩
    phase := .removing sampleOperation none
    updatedAt := ⟨2⟩ }

def sampleConfiguration : Configuration where
  serverId := sampleUuid 4
  identity := ⟨"mail.example.com", sampleUuid 7, "AB", "/full", "/key", 1⟩
  secretRevision := 1
  rendered := sampleRendered
  mappings := []

theorem sampleBegun_attached :
    Attached sampleContext ((protocol sampleContext).machine.run
        ((protocol sampleContext).machine.run (started [sampleMapping] [])
          sampleBegun)
        (continuation sampleContext ((protocol sampleContext).machine.run
          (started [sampleMapping] []) sampleBegun) sampleEnv sampleRemoving
          sampleOperation)).shared
      sampleRemoving sampleOperation sampleConfiguration := by
  have hmem : ((protocol sampleContext).machine.run
      (started [sampleMapping] []) sampleBegun).shared.jobs.mem = [] := by
    decide +kernel
  have hidle : ∀ {P : Job → Prop}, ∀ job ∈ ((protocol
      sampleContext).machine.run (started [sampleMapping] [])
        sampleBegun).shared.jobs.mem, P job := by
    intro P job hjob
    rw [hmem] at hjob
    cases hjob
  have houtcomes := continuation_outcomes sampleContext [sampleMapping] []
    sampleBegun (by decide +kernel) sampleRemoving sampleOperation sampleEnv
    sampleConfiguration
    ⟨by decide +kernel, rfl, rfl⟩
    ⟨rfl, rfl, rfl, rfl, by decide +kernel⟩
    hidle
  exact houtcomes.first rfl ⟨hidle, by decide +kernel, hidle⟩

def sampleOther : Sha256 :=
  ⟨"bbbbbbbbbbbbbbbbbbbbbbbbbbbbbbbbbbbbbbbbbbbbbbbbbbbbbbbbbbbbbbbb",
    Eq.refl true⟩

/-- A context in which the mail host decides what is rendered. -/
def sampleHosts : Context :=
  { sampleContext with
    render := fun identity _ _ => some
      (if identity.hostname = "mail.example.com" then sampleRendered
        else { sampleRendered with nginxSha256 := sampleOther }) }

/-- The mapping is deleted up to its job, and the job fails. -/
def sampleFailed : List MappingEvent :=
  .start sampleDelete :: sampleTurns 0 2
    ++ .start sampleContinue :: sampleTurns 1 6
    ++ .world (.settle true) :: sampleTurns 1 2
    ++ [.world (.call (.claimNext (sampleUuid 4).text ⟨4⟩)),
      .world (.settle true),
      .world (.call (.complete
        { serverId := (sampleUuid 4).text
          jobId := (sampleUuid 8).text
          status := "failed"
          result := .null
          error := .null } ⟨5⟩)),
      .world (.settle true)]

def sampleRetried : Mapping :=
  { sampleRemoving with
    phase := .removing sampleOperation
      (some ⟨⟨(sampleUuid 8).text, by decide +kernel⟩, sampleSha, sampleSha⟩) }

/-- Since then the mail host has changed. -/
def sampleMoved : Env :=
  { sampleEnv with
    materials :=
      { sampleEnv.materials with
        identity := .ok
          ⟨"mx.example.com", sampleUuid 7, "AB", "/full", "/key", 2⟩ } }

def sampleMovedConfiguration : Configuration where
  serverId := sampleUuid 4
  identity := ⟨"mx.example.com", sampleUuid 7, "AB", "/full", "/key", 2⟩
  secretRevision := 1
  rendered := { sampleRendered with nginxSha256 := sampleOther }
  mappings := []

/-- A mapping whose job has failed stays without one that could finish its
operation, where the mail host has changed since. -/
theorem retry_refused :
    ¬NeverStuck sampleHosts ((protocol sampleHosts).machine.run
      (started [sampleMapping] []) sampleFailed) := by
  intro h
  have hjobs : ((protocol sampleHosts).machine.run
      (started [sampleMapping] []) sampleFailed).shared.jobs.mem.map Job.status
      = [.failed] := by
    decide +kernel
  have hcontinuable : Continuable ((protocol sampleHosts).machine.run
      (started [sampleMapping] []) sampleFailed) sampleRetried
      sampleOperation :=
    ⟨by decide +kernel, rfl, rfl⟩
  have hworks : Works sampleHosts ((protocol sampleHosts).machine.run
      (started [sampleMapping] []) sampleFailed).shared sampleMoved
      sampleRetried sampleMovedConfiguration :=
    ⟨rfl, rfl, rfl, by decide +kernel, by decide +kernel⟩
  have hkept : (getRecordForMailDomain sampleRetried.mailDomainId
      ((protocol sampleHosts).machine.run
        ((protocol sampleHosts).machine.run (started [sampleMapping] [])
          sampleFailed)
        (continuation sampleHosts ((protocol sampleHosts).machine.run
          (started [sampleMapping] []) sampleFailed) sampleMoved
          sampleRetried sampleOperation)).shared.mappings).map Mapping.phase
      = some sampleRetried.phase := by
    decide +kernel
  revert h hjobs hcontinuable hworks hkept
  generalize (protocol sampleHosts).machine.run (started [sampleMapping] [])
    sampleFailed = f
  intro h hjobs hcontinuable hworks hkept
  have hfailed : ∀ job ∈ f.shared.jobs.mem, job.status = .failed := by
    intro job hjob
    have hstatus := List.mem_map_of_mem (f := Job.status) hjob
    rw [hjobs] at hstatus
    exact List.mem_singleton.mp hstatus
  have hidle : NoApply f.shared sampleRetried := by
    intro job hjob _ _
    rw [hfailed job hjob]
    rfl
  obtain ⟨jobId, hget, -⟩ := h sampleRetried sampleOperation sampleMoved
    sampleMovedConfiguration hcontinuable
    (fun _ _ job hjob => .inl (hfailed job (List.mem_of_find?_eq_some hjob)))
    hworks hidle
  rw [hget] at hkept
  have hphase := Option.some.inj hkept
  have hevidence := congrArg Phase.evidence? hphase
  have hsha : some sampleOther = some sampleSha :=
    congrArg (Option.map Evidence.nginxSha256) hevidence
  exact absurd hsha (by decide +kernel)

end Samples

example : hostnameOf "" = "webmail." := by decide +kernel

end Yunpanel.Roundcube
