/-
A mapping moves only as its operations let it, where no operation is
completed twice.

# The condition

`completeApply` makes every mapping that is not being removed active, one
that is removed already among them: two continuations that have both read
the finished job of a deletion undo it (`removed_again_active`). `Careful`
excludes that, and an operation identifier that a continuation still under
way works with.

# The proof

`Turn` lists what a step may do to a mapping. Each mutation is one of its
cases (`Moves`), memory moves along it, and the file is memory or one turn
ahead of it. That a configuration a job has applied is the right one rests
on `Proven`: evidence is of a configuration that was made for the mapping,
which holds since a call works on a copy of the mapping that is true as
long as the operation is the same (`Tracks`).
-/
import Yunpanel.Domains.Proofs.Runs
import Yunpanel.Jobs.Proofs.Lifecycle
import Yunpanel.Roundcube.Service

namespace Yunpanel.Roundcube

open Json Lib Lib.Result
open Jobs (Job PublicJob publicJob)

variable {c : Context}

-- ====== purpose

/-- A configuration has the mapping where it is to be bound, and does not
where it is to be deleted. -/
def Configuration.Suits (config : Configuration) (mapping : Mapping) :
    Prop :=
  if mapping.phase.isPending then config.includes mapping = true
  else config.excludes mapping = true

/-- Evidence is of a configuration that suits the mapping. -/
def Proven (c : Context) (mapping : Mapping) (evidence : Evidence) : Prop :=
  ∃ config : Configuration,
    config.evidence c.toPlatform evidence.jobId = evidence
      ∧ config.Suits mapping

/-- An operation is completed by a succeeded job of the registry that has
applied a configuration that suits the mapping. -/
def Completes (c : Context) (s : Panel) (mapping : Mapping)
    (job : PublicJob) : Prop :=
  (∃ j ∈ s.jobs.mem, publicJob j = job)
    ∧ ∃ evidence, mapping.phase.evidence? = some evidence
        ∧ exactSuccessfulJob mapping evidence job = true
        ∧ Proven c mapping evidence

/-- What a step may do to the mapping of a mail domain. -/
inductive Turn (past : List (Nat × Note)) :
    Option Mapping → Option Mapping → Prop where
  | same (mapping : Option Mapping) : Turn past mapping mapping
  | bound {old : Option Mapping} {new : Mapping} {operationId : Reference}
      (hold : ∀ mapping ∈ old, mapping.phase.isRemoved = true)
      (hnew : new.phase = .pending operationId none)
      (hrevision : new.revision.val
        = old.elim 0 (fun mapping => mapping.revision.val) + 1) :
      Turn past old (some new)
  | deleting {old new : Mapping} {operationId : Reference}
      (hold : old.phase = .active)
      (hnew : new.phase = .removing operationId none)
      (hrevision : new.revision.val = old.revision.val + 1) :
      Turn past (some old) (some new)
  | attached {old : Mapping} (evidence : Evidence) :
      Turn past (some old) (some (old.withPhase (old.phase.attached evidence)))
  | completed {old : Mapping} {evidence : Evidence} {id : Nat}
      {job : PublicJob} (hold : old.phase.inFlight = true)
      (hnoted : (id, .completed old job) ∈ past) :
      Turn past (some old)
        (some (old.withPhase (old.phase.completed evidence)))

abbrev MappingEvent := Flight.Event Call Env JobEvent

/-- The mapping of a mail domain, as it is in memory. -/
def mappingOf (f : Flight Panel Stage) (mailDomainId : Uuid) :
    Option Mapping :=
  getRecordForMailDomain mailDomainId f.shared.mappings

/-- In a run there is one mapping for each mail domain, web domain and
host, each turns only as it may, and what is noted as completed is. -/
structure Lawful (c : Context) (start : Flight Panel Stage)
    (events : List MappingEvent) : Prop where
  distinct : Distinct ((protocol c).machine.run start events).shared.mappings
  turns : ∀ before e after, events = before ++ e :: after →
    ∀ d, Turn ((protocol c).notes start (before ++ [e]))
      (mappingOf ((protocol c).machine.run start before) d)
      (mappingOf ((protocol c).machine.run start (before ++ [e])) d)
  completes : ∀ x ∈ (protocol c).machine.steps start events,
    ∀ id mapping job, (id, .completed mapping job)
        ∈ (protocol c).machine.answer x.1 x.2 →
      Completes c x.1.shared mapping job

-- ====== condition

/-- The copy of the mapping a continuation works on. -/
def Stage.mapping? : Stage → Option Mapping
  | entered _ => none
  | binding _ _ => none
  | deleting _ _ => none
  | fetching mapping => some mapping
  | completing mapping _ => some mapping
  | previewing mapping _ _ => some mapping
  | inventory mapping _ => some mapping
  | enqueueing mapping _ _ => some mapping
  | awaiting mapping _ _ _ => some mapping
  | attaching mapping _ _ _ => some mapping

/-- No other call continues this operation of the mail domain. -/
def Unused (f : Flight Panel Stage) (id : Nat) (mailDomainId : Uuid)
    (operationId : Reference) : Prop :=
  ∀ other ∈ List.range f.calls.length, other ≠ id →
    ∀ k ∈ f.stage other, ∀ mapping ∈ k.mapping?,
      mapping.mailDomainId = mailDomainId →
        mapping.phase.operationId? ≠ some operationId

instance (f : Flight Panel Stage) (id : Nat) (mailDomainId : Uuid)
    (operationId : Reference) :
    Decidable (Unused f id mailDomainId operationId) :=
  inferInstanceAs (Decidable (∀ other ∈ List.range f.calls.length,
    other ≠ id → ∀ k ∈ f.stage other, ∀ mapping ∈ k.mapping?,
      mapping.mailDomainId = mailDomainId →
        mapping.phase.operationId? ≠ some operationId))

/-- A segment completes no deletion that is completed, and begins an
operation under an identifier no call works with. -/
def Undisturbed (f : Flight Panel Stage) (id : Nat) : Stage → Prop
  | .binding preview operationId =>
      Unused f id preview.candidate.mailDomainId operationId
  | .deleting preview operationId =>
      ∀ current ∈ f.shared.mappings, current.id = preview.id →
        Unused f id current.mailDomainId operationId
  | .completing mapping _ =>
      ∀ current ∈ mappingOf f mapping.mailDomainId,
        current.phase.isRemoved = true →
          current.phase.operationId? ≠ mapping.phase.operationId?
  | _ => True

instance (f : Flight Panel Stage) (id : Nat) :
    (k : Stage) → Decidable (Undisturbed f id k)
  | .binding preview operationId => inferInstanceAs
      (Decidable (Unused f id preview.candidate.mailDomainId operationId))
  | .deleting preview operationId => inferInstanceAs (Decidable
      (∀ current ∈ f.shared.mappings, current.id = preview.id →
        Unused f id current.mailDomainId operationId))
  | .completing mapping _ => inferInstanceAs (Decidable
      (∀ current ∈ mappingOf f mapping.mailDomainId,
        current.phase.isRemoved = true →
          current.phase.operationId? ≠ mapping.phase.operationId?))
  | .entered _ | .fetching _ | .previewing _ _ _ | .inventory _ _
  | .enqueueing _ _ _ | .awaiting _ _ _ _ | .attaching _ _ _ _ =>
      .isTrue trivial

def Careful (f : Flight Panel Stage) : MappingEvent → Prop
  | .answer id _ => ∀ k ∈ f.stage id, Undisturbed f id k
  | _ => True

instance (f : Flight Panel Stage) : (e : MappingEvent) →
    Decidable (Careful f e)
  | .answer id _ => inferInstanceAs
      (Decidable (∀ k ∈ f.stage id, Undisturbed f id k))
  | .start _ | .world _ | .restart => .isTrue trivial

-- ====== mutations

/-- The mappings after a mutation, but for the one it wrote. -/
structure Writes (mappings : List Mapping) (new : Mapping)
    (next : List Mapping) : Prop where
  self : getRecordForMailDomain new.mailDomainId next = some new
  other : ∀ d, d ≠ new.mailDomainId →
    getRecordForMailDomain d next = getRecordForMailDomain d mappings
  mem : ∀ mapping ∈ next, mapping ∈ mappings ∨ mapping = new

variable {mappings next : List Mapping} {mapping : Mapping}
  {operationId : Reference} {config : Configuration} {evidence : Evidence}
  {past : List (Nat × Note)} {notes : List Note} {env : Env} {phase : Phase}
  {job : PublicJob} {k : Stage} {f : Flight Panel Stage} {segment : Segment}

/-- A mapping that is found is of the mail domain, and there. -/
theorem getRecord_eq_some {d : Uuid}
    (h : getRecordForMailDomain d mappings = some mapping) :
    mapping.mailDomainId = d ∧ mapping ∈ mappings := by
  refine ⟨?_, List.mem_of_find?_eq_some h⟩
  simpa using List.find?_some h

theorem mutate_eq_ok
    {operation : List Mapping → Except Failure (Mapping × List Mapping)}
    {new : Mapping} (h : mutate operation mappings = .ok (new, next)) :
    operation mappings = .ok (new, next) ∧ Distinct next := by
  unfold mutate at h
  obtain ⟨⟨new', next'⟩, hoperation, h⟩ := bind_eq_ok.mp h
  obtain ⟨_, hdistinct, h⟩ := bind_eq_ok.mp h
  obtain ⟨rfl, rfl⟩ := Prod.mk.inj (Except.ok.inj h)
  exact ⟨hoperation, of_decide_eq_true (ensure_eq_ok.mp hdistinct)⟩

/-- The one entry a located rewrite of a mail domain writes. -/
theorem writes_set {i : Nat} {current new : Mapping} {d : Uuid}
    (hlocate : locate (fun mapping : Mapping => mapping.mailDomainId == d)
      mappings = some (i, current)) (hnew : new.mailDomainId = d) :
    Writes mappings new (mappings.set i new) := by
  have hfind := find?_set_located hlocate hnew
  refine ⟨?_, fun d' hd' => ?_, fun mapping hmem => ?_⟩
  · unfold getRecordForMailDomain
    rw [hfind, if_pos hnew.symm]
  · unfold getRecordForMailDomain
    rw [hfind, if_neg]
    rw [← hnew]
    exact Ne.symm hd'
  · rcases List.mem_or_eq_of_mem_set hmem with h | h
    · exact .inl h
    · exact .inr h

theorem modifyMapping_eq_ok {test : Mapping → Bool}
    {change : Mapping → Except Failure Mapping} {new : Mapping}
    (h : modifyMapping test change mappings = .ok (new, next)) :
    ∃ i current, locate test mappings = some (i, current)
      ∧ change current = .ok new ∧ next = mappings.set i new := by
  unfold modifyMapping at h
  obtain ⟨⟨i, current⟩, hlocate, h⟩ := bind_eq_ok.mp h
  obtain ⟨updated, hchange, h⟩ := bind_eq_ok.mp h
  obtain ⟨rfl, rfl⟩ := Prod.mk.inj (Except.ok.inj h)
  exact ⟨i, current, demand_eq_ok.mp hlocate, hchange, rfl⟩

/-- What the mutation of a binding does. -/
theorem bindMapping_eq_ok {p : Platform} {preview : BindPreview}
    {randomUUID : Uuid} {now : Instant} {new : Mapping}
    (h : bindMapping p preview operationId randomUUID now mappings
      = .ok (new, next)) :
    Writes mappings new next
      ∧ new.mailDomainId = preview.candidate.mailDomainId
      ∧ new.phase = .pending operationId none
      ∧ (∀ mapping ∈ getRecordForMailDomain new.mailDomainId mappings,
          mapping.phase.isRemoved = true)
      ∧ new.revision.val
          = (getRecordForMailDomain new.mailDomainId mappings).elim 0
              (fun mapping => mapping.revision.val) + 1 := by
  unfold bindMapping at h
  obtain ⟨_, hcurrent, h⟩ := bind_eq_ok.mp h
  obtain ⟨revision, hrevision, h⟩ := bind_eq_ok.mp h
  obtain ⟨domainName, -, h⟩ := bind_eq_ok.mp h
  obtain ⟨hnew, hnext⟩ := Prod.mk.inj (Except.ok.inj h)
  rw [ensure_eq_ok] at hcurrent
  rw [demand_eq_ok] at hrevision
  have hdomain : new.mailDomainId = preview.candidate.mailDomainId := by
    rw [← hnew]
  have hval := Ranged.val_of_read? hrevision
  subst hnext
  rw [hnew]
  have hself := find?_upsert_self
    (p := fun mapping : Mapping =>
      mapping.mailDomainId == preview.candidate.mailDomainId)
    (f := fun _ => new) (fun _ _ => by simp [hdomain]) mappings
  have hother : ∀ d, d ≠ new.mailDomainId →
      (upsert (fun mapping : Mapping =>
          mapping.mailDomainId == preview.candidate.mailDomainId)
        (fun _ => new) mappings).find? (fun mapping =>
          mapping.mailDomainId == d)
        = mappings.find? fun mapping => mapping.mailDomainId == d := by
    intro d hd
    refine find?_upsert_other (fun _ _ => ?_) (fun mapping hmapping => ?_)
      mappings
    · simpa using Ne.symm hd
    · rw [beq_iff_eq] at hmapping
      rw [hmapping, ← hdomain]
      simpa using Ne.symm hd
  have hwrites : Writes mappings new (upsert (fun mapping : Mapping =>
      mapping.mailDomainId == preview.candidate.mailDomainId)
      (fun _ => new) mappings) := by
    refine ⟨?_, hother, fun mapping hmem => mem_upsert hmem⟩
    unfold getRecordForMailDomain
    rw [hdomain]
    exact hself
  rw [hdomain]
  refine ⟨hwrites, rfl, by rw [← hnew], ?_, ?_⟩
  · intro mapping hmapping
    rw [Option.mem_def.mp hmapping] at hcurrent
    unfold BindPreview.current at hcurrent
    simp only [Bool.and_eq_true] at hcurrent
    exact hcurrent.1.1.1
  · rw [show new.revision = revision by rw [← hnew], hval]
    cases hget : getRecordForMailDomain preview.candidate.mailDomainId
        mappings with
    | none =>
        rw [hget] at hcurrent
        unfold BindPreview.current at hcurrent
        simp only [Bool.and_eq_true, beq_iff_eq] at hcurrent
        simp [hcurrent.1]
    | some mapping =>
        rw [hget] at hcurrent
        unfold BindPreview.current at hcurrent
        simp only [Bool.and_eq_true, beq_iff_eq] at hcurrent
        simp [hcurrent.1.2]

/-- What the mutation of a deletion does. -/
theorem deleteMapping_eq_ok {preview : Mapping} {now : Instant}
    {new : Mapping} (hdistinct : Distinct mappings)
    (h : deleteMapping preview operationId now mappings = .ok (new, next)) :
    ∃ current, getRecordForMailDomain new.mailDomainId mappings = some current
      ∧ Writes mappings new next ∧ current.id = preview.id
      ∧ current.phase = .active ∧ new.phase = .removing operationId none
      ∧ new.revision.val = current.revision.val + 1 := by
  obtain ⟨i, current, hlocate, hchange, rfl⟩ := modifyMapping_eq_ok h
  obtain ⟨_, hcurrent, hchange⟩ := bind_eq_ok.mp hchange
  obtain ⟨revision, hrevision, hchange⟩ := bind_eq_ok.mp hchange
  rw [ensure_eq_ok] at hcurrent
  simp only [Bool.and_eq_true, beq_iff_eq] at hcurrent
  rw [demand_eq_ok] at hrevision
  have hnew := Except.ok.inj hchange
  have hdomain : new.mailDomainId = current.mailDomainId := by rw [← hnew]
  have hval := Ranged.val_of_read? hrevision
  have hat := getElem?_of_locate hlocate
  have hid : current.id = preview.id := by
    simpa using accepted_of_locate hlocate
  have hdomainAt := locate_key hdistinct.mailDomains hat
    (Eq.refl current.mailDomainId)
  refine ⟨current, ?_, writes_set hdomainAt hdomain, hid, hcurrent.1.1, ?_,
    ?_⟩
  · rw [hdomain]
    exact find?_key hdistinct.mailDomains (List.mem_of_getElem? hat) rfl
  · rw [← hnew]
  · rw [← hnew]
    exact hval

/-- What a mutation of an operation does. -/
theorem modifyOwned_eq_ok {d : Uuid} {stale : Failure}
    {change : Mapping → Except Failure Phase} {new : Mapping}
    (h : modifyOwned d operationId stale change mappings = .ok (new, next)) :
    ∃ current phase, getRecordForMailDomain d mappings = some current
      ∧ current.phase.operationId? = some operationId
      ∧ change current = .ok phase ∧ new = current.withPhase phase
      ∧ Writes mappings new next := by
  obtain ⟨i, current, hlocate, hchange, rfl⟩ := modifyMapping_eq_ok h
  obtain ⟨_, hcurrent, hchange⟩ := bind_eq_ok.mp hchange
  obtain ⟨phase, hphase, hchange⟩ := bind_eq_ok.mp hchange
  rw [ensure_eq_ok, beq_iff_eq] at hcurrent
  obtain rfl := Except.ok.inj hchange
  have hdomain : current.mailDomainId = d := by
    simpa using accepted_of_locate hlocate
  have hget : getRecordForMailDomain d mappings = some current := by
    unfold getRecordForMailDomain
    rw [← locate_map_snd, hlocate]
    rfl
  exact ⟨current, phase, hget, hcurrent, hphase, rfl,
    writes_set hlocate hdomain⟩

-- ====== what is proven

/-- Whether a configuration suits a mapping depends on what it shows. -/
theorem Configuration.suits_congr {mapping' : Mapping}
    (hshown : mapping'.shown = mapping.shown)
    (hpending : mapping'.phase.isPending = mapping.phase.isPending) :
    config.Suits mapping' ↔ config.Suits mapping := by
  have hid : mapping'.id = mapping.id := congrArg PublicMapping.id hshown
  have hdomain : mapping'.mailDomainId = mapping.mailDomainId :=
    congrArg PublicMapping.mailDomainId hshown
  have hhost : mapping'.hostname = mapping.hostname :=
    congrArg PublicMapping.hostname hshown
  unfold Configuration.Suits Configuration.includes Configuration.excludes
  rw [hpending, hshown, hid, hdomain, hhost]

theorem Proven.congr {mapping' : Mapping} (h : Proven c mapping evidence)
    (hshown : mapping'.shown = mapping.shown)
    (hpending : mapping'.phase.isPending = mapping.phase.isPending) :
    Proven c mapping' evidence := by
  obtain ⟨config, hevidence, hsuits⟩ := h
  exact ⟨config, hevidence,
    (Configuration.suits_congr hshown hpending).mpr hsuits⟩

/-- What the operation of a mapping wants suits it. -/
theorem suits_of_fulfils (h : config.fulfils mapping = true) :
    config.Suits mapping := by
  unfold Configuration.fulfils at h
  unfold Configuration.Suits
  cases hphase : mapping.phase with
  | pending operationId evidence =>
      rw [hphase] at h
      exact h
  | active =>
      rw [hphase] at h
      cases h
  | removing operationId evidence =>
      rw [hphase] at h
      exact h
  | removed operationId evidence =>
      rw [hphase] at h
      cases h

/-- The mappings are distinct and all evidence is proven. -/
structure Kept (c : Context) (mappings : List Mapping) : Prop where
  distinct : Distinct mappings
  proven : ∀ mapping ∈ mappings, ∀ evidence ∈ mapping.phase.evidence?,
    Proven c mapping evidence

/-- A copy in flight shows what the mapping shows, as long as the operation
is the same. -/
def Tracks (s : Panel) (mapping : Mapping) : Prop :=
  mapping.phase.inFlight = true
    ∧ ∀ current, getRecordForMailDomain mapping.mailDomainId s.mappings
        = some current →
      current.phase.operationId? = mapping.phase.operationId? →
        current.shown = mapping.shown
          ∧ current.phase.isPending = mapping.phase.isPending

/-- What a stage carries besides the copy. -/
def Bears (s : Panel) : Stage → Prop
  | .completing _ job => job.status = .succeeded
      ∧ ∃ j ∈ s.jobs.mem, publicJob j = job
  | .enqueueing mapping _ config => config.Suits mapping
  | .awaiting mapping _ config _ => config.Suits mapping
  | .attaching mapping _ config _ => config.Suits mapping
  | _ => True

structure Sincere (s : Panel) (k : Stage) : Prop where
  tracks : ∀ mapping, k.mapping? = some mapping → Tracks s mapping
  bears : Bears s k

-- ====== writes

theorem Turn.mono {more : List (Nat × Note)} {old new : Option Mapping}
    (h : Turn past old new) (hsub : ∀ note ∈ past, note ∈ more) :
    Turn more old new := by
  cases h with
  | same => exact .same _
  | bound hold hnew hrevision => exact .bound hold hnew hrevision
  | deleting hold hnew hrevision => exact .deleting hold hnew hrevision
  | attached evidence => exact .attached evidence
  | completed hold hnoted => exact .completed hold (hsub _ hnoted)

/-- A mapping that is removed does not turn active. -/
theorem Turn.ne_active {old new : Mapping}
    (h : Turn past (some old) (some new))
    (hold : old.phase.isRemoved = true) : new.phase ≠ .active := by
  have hphase : ∃ operationId evidence,
      old.phase = .removed operationId evidence := by
    cases hphase : old.phase with
    | removed operationId evidence => exact ⟨operationId, evidence, rfl⟩
    | pending _ _ => rw [hphase] at hold; cases hold
    | active => rw [hphase] at hold; cases hold
    | removing _ _ => rw [hphase] at hold; cases hold
  obtain ⟨operationId, evidence, hphase⟩ := hphase
  intro hactive
  cases h with
  | same => rw [hphase] at hactive; cases hactive
  | bound _ hnew _ => rw [hnew] at hactive; cases hactive
  | deleting _ hnew _ => rw [hnew] at hactive; cases hactive
  | attached evidence =>
      rw [Mapping.withPhase_phase, hphase] at hactive
      cases hactive
  | completed hflight _ => rw [hphase] at hflight; cases hflight

/-- What one mutation writes. -/
structure Write (c : Context) (s : Panel) (free : Uuid → Reference → Prop)
    (notes : List Note) (new : Mapping) (next : List Mapping) : Prop where
  writes : Writes s.mappings new next
  distinct : Distinct next
  proven : ∀ evidence ∈ new.phase.evidence?, Proven c new evidence
  turn : ∀ id, Turn (notes.map fun note => (id, note))
    (getRecordForMailDomain new.mailDomainId s.mappings) (some new)
  follows : ∀ operationId, new.phase.operationId? = some operationId →
    (∃ current, getRecordForMailDomain new.mailDomainId s.mappings
        = some current ∧ current.phase.operationId? = some operationId
          ∧ new.shown = current.shown
          ∧ new.phase.isPending = current.phase.isPending)
      ∨ free new.mailDomainId operationId

/-- What a segment does to the mappings: nothing, or one mutation that
reaches the file and perhaps memory. -/
inductive Acts (c : Context) (s : Panel) (free : Uuid → Reference → Prop)
    (segment : Segment) : Prop where
  | quiet (hmem : segment.1.mappings = s.mappings)
      (hfile : segment.1.file = s.file)
      (hnotes : ∀ mapping job, .completed mapping job ∉ segment.2.2)
  | wrote (new : Mapping) (next : List Mapping)
      (hwrite : Write c s free segment.2.2 new next)
      (hmem : segment.1.mappings = s.mappings ∨ segment.1.mappings = next)
      (hfile : segment.1.file = next)
      (hnotes : ∀ mapping job, .completed mapping job ∈ segment.2.2 →
        Completes c s mapping job)

variable {s : Panel} {free : Uuid → Reference → Prop}

theorem acts_reject (s : Panel) (e : Failure) : Acts c s free (s.reject e) :=
  .quiet rfl rfl fun _ _ h => by cases List.mem_singleton.mp h

theorem Write.more {new : Mapping} (h : Write c s free notes new next)
    (last : Note) :
    Write c s free (notes ++ [last]) new next := by
  refine ⟨h.writes, h.distinct, h.proven, fun id => ?_, h.follows⟩
  refine (h.turn id).mono fun note hnote => ?_
  rw [List.map_append]
  exact List.mem_append_left _ hnote

/-- A mutation acts where what it computes is a write. -/
theorem acts_change
    {operation : List Mapping → Except Failure (Mapping × List Mapping)}
    (hwrite : ∀ new next, operation s.mappings = .ok (new, next) →
      Distinct next → Write c s free notes new next
        ∧ ∀ mapping job, .completed mapping job ∈ notes →
            Completes c s mapping job) :
    Acts c s free (s.change env notes operation) := by
  unfold Panel.change
  cases hmutate : mutate operation s.mappings with
  | error e => exact acts_reject s e
  | ok result =>
      obtain ⟨new, next⟩ := result
      obtain ⟨hoperation, hdistinct⟩ := mutate_eq_ok hmutate
      obtain ⟨hw, hnotes⟩ := hwrite new next hoperation hdistinct
      have hmore : ∀ last mapping job, .completed mapping job
          ∈ notes ++ [last] → (∀ m j, last ≠ .completed m j) →
            Completes c s mapping job := by
        intro last mapping job hmem hlast
        rcases List.mem_append.mp hmem with hmem | hmem
        · exact hnotes mapping job hmem
        · exact absurd (List.mem_singleton.mp hmem).symm (hlast mapping job)
      cases hwritten : env.written with
      | landed =>
          exact .wrote new next (hw.more .returned) (.inr rfl) rfl
            fun mapping job hmem =>
              hmore _ mapping job hmem fun _ _ h => (nomatch h)
      | lost => exact acts_reject s _
      | torn =>
          exact .wrote new next (hw.more (.rejected .store)) (.inl rfl) rfl
            fun mapping job hmem =>
              hmore _ mapping job hmem fun _ _ h => (nomatch h)

theorem acts_bind {preview : BindPreview}
    (hfree : free preview.candidate.mailDomainId operationId) :
    Acts c s free (s.bind c env preview operationId) := by
  refine acts_change fun new next hoperation hdistinct => ⟨?_, ?_⟩
  · obtain ⟨hwrites, hdomain, hphase, hold, hrevision⟩ :=
      bindMapping_eq_ok hoperation
    refine ⟨hwrites, hdistinct, fun evidence hevidence => ?_, fun _ => ?_,
      fun op hop => ?_⟩
    · rw [hphase] at hevidence
      cases hevidence
    · exact .bound hold hphase hrevision
    · rw [hphase] at hop
      obtain rfl := Option.some.inj hop
      rw [hdomain]
      exact .inr hfree
  · exact fun _ _ h => (nomatch h)

theorem acts_delete {preview : Mapping} (hs : Distinct s.mappings)
    (hfree : ∀ current ∈ s.mappings, current.id = preview.id →
      free current.mailDomainId operationId) :
    Acts c s free (s.delete env preview operationId) := by
  refine acts_change fun new next hoperation hdistinct => ⟨?_, ?_⟩
  · obtain ⟨current, hget, hwrites, hid, hactive, hphase, hrevision⟩ :=
      deleteMapping_eq_ok hs hoperation
    obtain ⟨hdomain, hmem⟩ := getRecord_eq_some hget
    refine ⟨hwrites, hdistinct, fun evidence hevidence => ?_, fun _ => ?_,
      fun op hop => ?_⟩
    · rw [hphase] at hevidence
      cases hevidence
    · rw [hget]
      exact .deleting hactive hphase hrevision
    · rw [hphase] at hop
      obtain rfl := Option.some.inj hop
      rw [← hdomain]
      exact .inr (hfree current hmem hid)
  · exact fun _ _ h => (nomatch h)

-- ====== operations

@[simp] theorem Phase.operationId?_attached (phase : Phase)
    (evidence : Evidence) :
    (phase.attached evidence).operationId? = phase.operationId? := by
  cases phase <;> rfl

@[simp] theorem Phase.isPending_attached (phase : Phase)
    (evidence : Evidence) :
    (phase.attached evidence).isPending = phase.isPending := by
  cases phase <;> rfl

/-- The evidence of a mapping that has some attached is that. -/
theorem Phase.evidence?_attached {evidence' : Evidence}
    (h : (phase.attached evidence).evidence? = some evidence') :
    evidence' = evidence := by
  cases phase with
  | pending => exact (Option.some.inj h).symm
  | active => cases h
  | removing => exact (Option.some.inj h).symm
  | removed => exact (Option.some.inj h).symm

/-- A completed operation leaves the mapping to the operation only where it
was removing it. -/
theorem Phase.completed_of_operationId?
    (h : (phase.completed evidence).operationId? = some operationId) :
    phase.operationId? = some operationId ∧ phase.isPending = false
      ∧ (phase.completed evidence).isPending = false := by
  cases phase with
  | pending => cases h
  | active => cases h
  | removing => exact ⟨h, rfl, rfl⟩
  | removed => cases h

theorem Phase.evidence?_completed {evidence' : Evidence}
    (h : (phase.completed evidence).evidence? = some evidence') :
    evidence' = evidence ∧ phase.isPending = false := by
  cases phase with
  | pending => cases h
  | active => cases h
  | removing => exact ⟨(Option.some.inj h).symm, rfl⟩
  | removed => cases h

/-- A mapping an operation owns and that is not removed is in flight. -/
theorem Phase.inFlight_of (h : phase.operationId? = some operationId)
    (hremoved : phase.isRemoved ≠ true) : phase.inFlight = true := by
  cases phase with
  | pending => rfl
  | active => cases h
  | removing => rfl
  | removed => exact absurd rfl hremoved

/-- Evidence is attached to the mapping of an operation. -/
theorem write_attached {current new : Mapping}
    (hget : getRecordForMailDomain new.mailDomainId s.mappings = some current)
    (hnew : new = current.withPhase (current.phase.attached evidence))
    (hwrites : Writes s.mappings new next) (hdistinct : Distinct next)
    (hproven : Proven c current evidence) : Write c s free [] new next := by
  have hshown : new.shown = current.shown := by rw [hnew]; rfl
  have hpending : new.phase.isPending = current.phase.isPending := by
    rw [hnew, Mapping.withPhase_phase, Phase.isPending_attached]
  refine ⟨hwrites, hdistinct, fun ev hev => ?_, fun _ => ?_, fun op hop' => ?_⟩
  · rw [hnew] at hev
    obtain rfl := Phase.evidence?_attached (Option.mem_def.mp hev)
    exact hproven.congr hshown hpending
  · rw [hget, hnew]
    exact .attached evidence
  · refine .inl ⟨current, hget, ?_, hshown, hpending⟩
    rw [hnew, Mapping.withPhase_phase, Phase.operationId?_attached] at hop'
    exact hop'

theorem acts_attach {replacing : Option Reference}
    (htracks : Tracks s mapping) (hsuits : config.Suits mapping) :
    Acts c s free (s.attach c env mapping replacing config job) := by
  unfold Panel.attach Panel.owned
  cases hop : mapping.phase.operationId? with
  | none => exact acts_reject s _
  | some operationId =>
      dsimp only
      cases hid : (Matching.ofText? job.id.text : Option Reference) with
      | none => exact acts_reject s _
      | some jobId =>
          refine acts_change fun new next hoperation hdistinct => ⟨?_, ?_⟩
          · have hproven : ∀ current : Mapping,
                getRecordForMailDomain mapping.mailDomainId s.mappings
                  = some current →
                current.phase.operationId? = some operationId →
                  Proven c current (config.evidence c.toPlatform jobId) := by
              intro current hget hcurrent
              obtain ⟨hshown, hpending⟩ := htracks.2 current hget
                (hcurrent.trans hop.symm)
              exact ⟨config, rfl,
                (Configuration.suits_congr hshown hpending).mpr hsuits⟩
            cases replacing with
            | none =>
                obtain ⟨current, phase, hget, hcurrent, hphase, hnew, hwrites⟩
                  := modifyOwned_eq_ok hoperation
                obtain ⟨_, -, hphase⟩ := bind_eq_ok.mp hphase
                obtain rfl := Except.ok.inj hphase
                have hdomain : new.mailDomainId = mapping.mailDomainId := by
                  rw [hnew]
                  exact (getRecord_eq_some hget).1
                exact write_attached (hdomain ▸ hget) hnew hwrites
                  hdistinct (hproven current hget hcurrent)
            | some previous =>
                obtain ⟨current, phase, hget, hcurrent, hphase, hnew, hwrites⟩
                  := modifyOwned_eq_ok hoperation
                obtain ⟨_, -, hphase⟩ := bind_eq_ok.mp hphase
                obtain rfl := Except.ok.inj hphase
                have hdomain : new.mailDomainId = mapping.mailDomainId := by
                  rw [hnew]
                  exact (getRecord_eq_some hget).1
                exact write_attached (hdomain ▸ hget) hnew hwrites
                  hdistinct (hproven current hget hcurrent)
          · exact fun _ _ h => (nomatch h)

theorem acts_complete (hs : Kept c s.mappings)
    (hjob : ∃ j ∈ s.jobs.mem, publicJob j = job)
    (honce : ∀ current ∈ getRecordForMailDomain mapping.mailDomainId
        s.mappings, current.phase.isRemoved = true →
      current.phase.operationId? ≠ mapping.phase.operationId?) :
    Acts c s free (s.complete env mapping job) := by
  unfold Panel.complete Panel.owned
  cases hop : mapping.phase.operationId? with
  | none => exact acts_reject s _
  | some operationId =>
      refine acts_change fun new next hoperation hdistinct => ?_
      obtain ⟨current, phase, hget, hcurrent, hphase, hnew, hwrites⟩ :=
        modifyOwned_eq_ok hoperation
      obtain ⟨evidence, hevidence, hphase⟩ := bind_eq_ok.mp hphase
      obtain rfl := Except.ok.inj hphase
      rw [demand_eq_ok, Option.filter_eq_some_iff] at hevidence
      obtain ⟨hevidence, hexact⟩ := hevidence
      obtain ⟨hdomain, hmem⟩ := getRecord_eq_some hget
      have hnotes : ((getRecordForMailDomain mapping.mailDomainId
          s.mappings).toList.map fun current => Note.completed current job)
          = [.completed current job] := by
        rw [hget]
        rfl
      have hnewDomain : new.mailDomainId = mapping.mailDomainId := by
        rw [hnew]
        exact hdomain
      have hproven := hs.proven current hmem evidence hevidence
      have hshown : new.shown = current.shown := by rw [hnew]; rfl
      have hnewPhase : new.phase = current.phase.completed evidence := by
        rw [hnew]
        rfl
      rw [hnotes]
      refine ⟨⟨hwrites, hdistinct, fun ev hev => ?_, fun id => ?_,
        fun op hop' => ?_⟩, fun m j hm => ?_⟩
      · rw [hnewPhase] at hev
        obtain ⟨rfl, hpending⟩ :=
          Phase.evidence?_completed (Option.mem_def.mp hev)
        have hpending' : new.phase.isPending = false := by
          rw [hnewPhase]
          cases hp : current.phase with
          | pending => rw [hp] at hpending; cases hpending
          | active => rfl
          | removing => rfl
          | removed => rfl
        exact hproven.congr hshown (hpending'.trans hpending.symm)
      · rw [hnewDomain, hget, hnew]
        have hflight : current.phase.inFlight = true :=
          Phase.inFlight_of hcurrent fun hremoved =>
            honce current hget hremoved (hcurrent.trans hop.symm)
        have hnoted : (id, Note.completed current job)
            ∈ [Note.completed current job].map fun note => (id, note) :=
          List.mem_cons_self
        exact .completed hflight hnoted
      · rw [hnewPhase] at hop'
        obtain ⟨hsame, hold, hpending⟩ := Phase.completed_of_operationId? hop'
        rw [hnewDomain, hnewPhase]
        exact .inl ⟨current, hget, hsame, hshown, hpending.trans hold.symm⟩
      · obtain ⟨rfl, rfl⟩ := Note.completed.inj (List.mem_singleton.mp hm)
        exact ⟨hjob, evidence, hevidence, hexact, hproven⟩

-- ====== segments

/-- The jobs that are done are there later. -/
def Later (jobs jobs' : List Job) : Prop :=
  ∀ job ∈ jobs, job.status = .succeeded → job ∈ jobs'

theorem later_refl (jobs : List Job) : Later jobs jobs := fun _ h _ => h

theorem Later.trans {jobs jobs' jobs'' : List Job} (h : Later jobs jobs')
    (h' : Later jobs' jobs'') : Later jobs jobs'' :=
  fun job hjob hdone => h' job (h job hjob hdone) hdone

/-- A job that is done is not changed again. -/
theorem later_of_change {jobs jobs' : List Job}
    (hchange : Jobs.Change jobs jobs') : Later jobs jobs' := by
  intro job hjob hdone
  obtain ⟨i, hi⟩ := List.mem_iff_getElem?.mp hjob
  obtain ⟨job', hi', rfl | hadvances⟩ := hchange.entry hi
  · exact List.mem_of_getElem? hi'
  · have hstatus := hadvances.status
    rw [hdone] at hstatus
    cases hstatus

/-- What a call knows stays true where the mappings stay and the jobs go
on. -/
theorem Sincere.of_same {s' : Panel} (h : Sincere s k)
    (hmappings : s'.mappings = s.mappings)
    (hjobs : Later s.jobs.mem s'.jobs.mem) : Sincere s' k := by
  refine ⟨fun mapping hmapping => ?_, ?_⟩
  · have htracks := h.tracks mapping hmapping
    unfold Tracks at htracks ⊢
    rw [hmappings]
    exact htracks
  · have hbears := h.bears
    cases k with
    | completing mapping job =>
        obtain ⟨hstatus, j, hj, rfl⟩ := hbears
        exact ⟨hstatus, j, hjobs j hj hstatus, rfl⟩
    | entered _ => trivial
    | binding _ _ => trivial
    | deleting _ _ => trivial
    | fetching _ => trivial
    | previewing _ _ _ => trivial
    | inventory _ _ => trivial
    | enqueueing _ _ _ => exact hbears
    | awaiting _ _ _ _ => exact hbears
    | attaching _ _ _ _ => exact hbears

/-- A segment that leaves the mappings and the file alone. -/
structure Quiet (s : Panel) (segment : Segment) : Prop where
  mappings : segment.1.mappings = s.mappings
  file : segment.1.file = s.file
  jobs : Later s.jobs.mem segment.1.jobs.mem
  notes : ∀ mapping job, .completed mapping job ∉ segment.2.2
  next : ∀ k, segment.2.1 = some k → Sincere segment.1 k

theorem quiet_goTo (h : Sincere s k) : Quiet s (s.goTo k) :=
  ⟨rfl, rfl, later_refl _, fun _ _ h => (nomatch h),
    fun _ hk => Option.some.inj hk ▸ h⟩

theorem quiet_reject (s : Panel) (e : Failure) : Quiet s (s.reject e) :=
  ⟨rfl, rfl, later_refl _, fun _ _ h => (by cases List.mem_singleton.mp h),
    fun _ hk => (nomatch hk)⟩

theorem quiet_return (s : Panel) : Quiet s s.return :=
  ⟨rfl, rfl, later_refl _, fun _ _ h => (by cases List.mem_singleton.mp h),
    fun _ hk => (nomatch hk)⟩

/-- A stage that carries nothing but the copy. -/
theorem sincere_of_tracks (htracks : Tracks s mapping)
    (hk : k.mapping? = some mapping) (hbears : Bears s k) : Sincere s k :=
  ⟨fun _ h => Option.some.inj (hk.symm.trans h) ▸ htracks, hbears⟩

theorem quiet_enter (s : Panel) (env : Env) (call : Call) :
    Quiet s (s.enter c env call) := by
  cases call with
  | beginBind input =>
      unfold Panel.enter
      dsimp only
      split
      · exact quiet_reject s _
      · exact quiet_goTo ⟨fun _ h => (by cases h), trivial⟩
  | beginDelete input =>
      unfold Panel.enter
      dsimp only
      split
      · exact quiet_reject s _
      · exact quiet_goTo ⟨fun _ h => (by cases h), trivial⟩
  | continueOperation input =>
      unfold Panel.enter
      dsimp only
      split
      · exact quiet_reject s _
      · rename_i mapping hcheck
        have htracks : Tracks s mapping := by
          unfold checkContinue at hcheck
          obtain ⟨id, -, hcheck⟩ := bind_eq_ok.mp hcheck
          rw [demand_eq_ok, Option.filter_eq_some_iff] at hcheck
          obtain ⟨hget, hfound⟩ := hcheck
          simp only [Bool.and_eq_true] at hfound
          refine ⟨hfound.1.1.1, fun current hcurrent _ => ?_⟩
          rw [(getRecord_eq_some hget).1, hget] at hcurrent
          rw [Option.some.inj hcurrent]
          exact ⟨rfl, rfl⟩
        split
        · exact quiet_goTo (sincere_of_tracks htracks rfl trivial)
        · exact quiet_goTo (sincere_of_tracks htracks rfl trivial)

theorem quiet_fetch (htracks : Tracks s mapping) (env : Env) :
    Quiet s (s.fetch env mapping) := by
  unfold Panel.fetch
  cases hevidence : mapping.phase.evidence? with
  | none => exact quiet_goTo (sincere_of_tracks htracks rfl trivial)
  | some evidence =>
      dsimp only
      cases hjob : jobFor env s.jobs.mem evidence.jobId with
      | error e => exact quiet_reject s e
      | ok job =>
          have hmem : ∃ j ∈ s.jobs.mem, publicJob j = job := by
            unfold jobFor at hjob
            obtain ⟨_, -, hjob⟩ := bind_eq_ok.mp hjob
            rw [demand_eq_ok, Option.map_eq_some_iff] at hjob
            obtain ⟨j, hj, rfl⟩ := hjob
            exact ⟨j, List.mem_of_find?_eq_some hj, rfl⟩
          dsimp only
          cases hstatus : job.status with
          | queued => exact quiet_return s
          | running => exact quiet_return s
          | succeeded =>
              exact quiet_goTo (sincere_of_tracks htracks rfl ⟨hstatus, hmem⟩)
          | failed => exact quiet_goTo (sincere_of_tracks htracks rfl trivial)
          | cancelled =>
              exact quiet_goTo (sincere_of_tracks htracks rfl trivial)

theorem quiet_preview (htracks : Tracks s mapping) (env : Env) (goal : Goal)
    (step : PreviewStep) :
    Quiet s (s.preview c env mapping goal step) := by
  unfold Panel.preview
  cases step with
  | inspecting =>
      dsimp only
      split
      · exact quiet_reject s _
      · exact quiet_goTo (sincere_of_tracks htracks rfl trivial)
      · exact quiet_reject s _
  | listing => exact quiet_goTo (sincere_of_tracks htracks rfl trivial)
  | materializing listed =>
      dsimp only
      split
      · exact quiet_reject s _
      · rename_i config _
        by_cases hfulfils : config.fulfils mapping = true
        · rw [if_pos hfulfils]
          cases goal with
          | apply replacing =>
              exact quiet_goTo (sincere_of_tracks htracks rfl
                (suits_of_fulfils hfulfils))
          | retry jobId =>
              unfold Panel.previewed
              dsimp only
              split
              · exact quiet_goTo (sincere_of_tracks htracks rfl trivial)
              · exact quiet_reject s _
        · rw [if_neg hfulfils]
          exact quiet_reject s _

theorem quiet_enqueued (htracks : Tracks s mapping)
    (hsuits : config.Suits mapping) (replacing : Option Reference)
    (answer : Except Jobs.Failure Jobs.Reply) :
    Quiet s (s.enqueued mapping replacing config answer) := by
  unfold Panel.enqueued
  split
  · exact quiet_goTo (sincere_of_tracks htracks rfl hsuits)
  · exact quiet_reject s _
  · exact quiet_reject s _

theorem quiet_enqueue (htracks : Tracks s mapping)
    (hsuits : config.Suits mapping) (replacing : Option Reference)
    (env : Env) :
    Quiet s (s.enqueue c env mapping replacing config) := by
  unfold Panel.enqueue Panel.owned
  cases hop : mapping.phase.operationId? with
  | none => exact quiet_reject s _
  | some operationId =>
      dsimp only
      have hlater : Later s.jobs.mem
          (s.jobs.ask (Jobs.enqueue c.protocol
            (applyRequest c mapping operationId replacing config) env.jobId
            env.jobNow)).1.mem := by
        rw [Desk.ask_mem]
        exact later_of_change (Jobs.change_enqueue c.protocol _ _ _ _)
      -- the jobs go on, the mappings stay
      have hquiet : ∀ {s' : Panel} {segment : Segment}, Quiet s' segment →
          s'.mappings = s.mappings → s'.file = s.file →
            Later s.jobs.mem s'.jobs.mem → Quiet s segment :=
        fun h hmappings hfile hjobs => ⟨h.mappings.trans hmappings,
          h.file.trans hfile, hjobs.trans h.jobs, h.notes, h.next⟩
      have htracks' : ∀ jobs, Tracks { s with jobs } mapping :=
        fun _ => htracks
      split
      · exact hquiet (quiet_enqueued (htracks' _) hsuits replacing _) rfl rfl
          hlater
      · exact hquiet (quiet_goTo
          (sincere_of_tracks (htracks' _) rfl hsuits)) rfl rfl hlater

theorem quiet_await (htracks : Tracks s mapping)
    (hsuits : config.Suits mapping) (replacing : Option Reference)
    (ticket : Nat) :
    Quiet s (s.await mapping replacing config ticket) := by
  unfold Panel.await
  split
  · exact quiet_enqueued htracks hsuits replacing _
  · exact quiet_enqueued htracks hsuits replacing _
  · exact quiet_goTo (sincere_of_tracks htracks rfl hsuits)

/-- A mutation ends its call and leaves the jobs alone. -/
structure Ends (s : Panel) (segment : Segment) : Prop where
  jobs : segment.1.jobs = s.jobs
  next : segment.2.1 = none

theorem ends_change (s : Panel) (env : Env) (notes : List Note)
    (operation : List Mapping → Except Failure (Mapping × List Mapping)) :
    Ends s (s.change env notes operation) := by
  unfold Panel.change
  split
  · exact ⟨rfl, rfl⟩
  · split <;> exact ⟨rfl, rfl⟩

theorem ends_owned {f : Reference → Segment}
    (h : ∀ operationId, Ends s (f operationId)) :
    Ends s (s.owned mapping f) := by
  unfold Panel.owned
  split
  · exact h _
  · exact ⟨rfl, rfl⟩

/-- One segment: what it does to the mappings, to the jobs, and what the
call knows then. -/
structure Resumes (c : Context) (s : Panel) (free : Uuid → Reference → Prop)
    (segment : Segment) : Prop where
  acts : Acts c s free segment
  jobs : Later s.jobs.mem segment.1.jobs.mem
  next : ∀ k, segment.2.1 = some k → Sincere segment.1 k

theorem Quiet.resumes (h : Quiet s segment) :
    Resumes c s free segment :=
  ⟨.quiet h.mappings h.file h.notes, h.jobs, h.next⟩

theorem Ends.resumes (h : Ends s segment) (hacts : Acts c s free segment) :
    Resumes c s free segment := by
  refine ⟨hacts, ?_, fun k hk => ?_⟩
  · rw [h.jobs]
    exact later_refl _
  · rw [h.next] at hk
    cases hk

theorem resumes_resume {id : Nat} (hkept : Kept c f.shared.mappings)
    (hk : Sincere f.shared k) (hcare : Undisturbed f id k) (env : Env) :
    Resumes c f.shared (Unused f id) (f.shared.resume c k env) := by
  cases k with
  | entered call => exact (quiet_enter f.shared env call).resumes
  | binding preview operationId =>
      exact (ends_change _ _ _ _).resumes (acts_bind hcare)
  | deleting preview operationId =>
      exact (ends_change _ _ _ _).resumes (acts_delete hkept.distinct hcare)
  | fetching mapping =>
      exact (quiet_fetch (hk.tracks mapping rfl) env).resumes
  | completing mapping job =>
      exact (ends_owned fun _ => ends_change _ _ _ _).resumes
        (acts_complete hkept hk.bears.2 hcare)
  | previewing mapping goal step =>
      exact (quiet_preview (hk.tracks mapping rfl) env goal step).resumes
  | inventory mapping replacing =>
      unfold Panel.resume
      dsimp only
      split
      · exact (quiet_reject _ _).resumes
      · refine Quiet.resumes (quiet_goTo ?_)
        exact sincere_of_tracks (hk.tracks mapping rfl) rfl trivial
  | enqueueing mapping replacing config =>
      exact (quiet_enqueue (hk.tracks mapping rfl) hk.bears replacing
        env).resumes
  | awaiting mapping replacing config ticket =>
      exact (quiet_await (hk.tracks mapping rfl) hk.bears replacing
        ticket).resumes
  | attaching mapping replacing config job =>
      refine Ends.resumes ?_ (acts_attach (hk.tracks mapping rfl) hk.bears)
      refine ends_owned fun operationId => ?_
      split
      · exact ⟨rfl, rfl⟩
      · exact ends_change _ _ _ _

-- ====== others

theorem Kept.of_write {new : Mapping} (h : Write c s free notes new next)
    (hs : Kept c s.mappings) : Kept c next := by
  refine ⟨h.distinct, fun mapping hmapping evidence hevidence => ?_⟩
  rcases h.writes.mem mapping hmapping with hold | rfl
  · exact hs.proven mapping hold evidence hevidence
  · exact h.proven evidence hevidence

/-- A copy of another call stays true where a mutation follows the
operation of the mapping or begins one that no other call works with. -/
theorem Tracks.of_write {id other : Nat} {l : Stage} {new : Mapping}
    {s' : Panel} (h : Write c f.shared (Unused f id) notes new next)
    (hother : other ≠ id) (hl : f.stage other = some l)
    (hmapping : l.mapping? = some mapping)
    (htracks : Tracks f.shared mapping) (hmem : s'.mappings = next) :
    Tracks s' mapping := by
  refine ⟨htracks.1, fun current hcurrent hop => ?_⟩
  rw [hmem] at hcurrent
  by_cases hd : mapping.mailDomainId = new.mailDomainId
  · rw [hd, h.writes.self] at hcurrent
    obtain rfl := Option.some.inj hcurrent
    have howned : ∃ operationId, mapping.phase.operationId?
        = some operationId := by
      have hflight := htracks.1
      cases hphase : mapping.phase with
      | pending operationId _ => exact ⟨operationId, rfl⟩
      | active => rw [hphase] at hflight; cases hflight
      | removing operationId _ => exact ⟨operationId, rfl⟩
      | removed operationId _ => exact ⟨operationId, rfl⟩
    obtain ⟨operationId, hown⟩ := howned
    rcases h.follows operationId (hop.trans hown) with
      ⟨old, hold, hsame, hshown, hpending⟩ | hfree
    · obtain ⟨hshown', hpending'⟩ := htracks.2 old (hd ▸ hold)
        (hsame.trans hown.symm)
      exact ⟨hshown.trans hshown', hpending.trans hpending'⟩
    · have hlt := List.mem_range.mpr (Protocol.lt_of_stage hl)
      exact absurd hown (hfree other hlt hother l hl mapping hmapping hd)
  · rw [h.writes.other _ hd] at hcurrent
    exact htracks.2 current hcurrent hop

/-- What the mappings in memory and in the file are. -/
def Stored (c : Context) (s : Panel) : Prop :=
  Kept c s.mappings ∧ Kept c s.file

theorem keeps_sincere : (protocol c).KeepsApart Careful (Stored c) Sincere
    (fun _ _ => True) where
  start f call _ _ := ⟨⟨fun _ h => (nomatch h), trivial⟩, fun _ => trivial⟩
  resume f id env k hok hstage hs hk := by
    have hresumes := resumes_resume hs.1 hk (hok k hstage) env
    refine ⟨?_, fun k' hk' => hresumes.next k' hk',
      fun other l hother hl hsincere _ => ⟨?_, fun _ _ => trivial⟩⟩
    · cases hresumes.acts with
      | quiet hmem hfile _ =>
          exact ⟨hmem ▸ hs.1, hfile ▸ hs.2⟩
      | wrote new next hwrite hmem hfile _ =>
          have hnext := hs.1.of_write hwrite
          rcases hmem with hmem | hmem
          · exact ⟨hmem ▸ hs.1, hfile ▸ hnext⟩
          · exact ⟨hmem ▸ hnext, hfile ▸ hnext⟩
    · cases hresumes.acts with
      | quiet hmem _ _ => exact hsincere.of_same hmem hresumes.jobs
      | wrote new next hwrite hmem hfile _ =>
          rcases hmem with hmem | hmem
          · exact hsincere.of_same hmem hresumes.jobs
          · have hlater : Sincere { f.shared with
                jobs := (f.shared.resume c k env).1.jobs } l :=
              hsincere.of_same rfl hresumes.jobs
            have hbears := hlater.bears
            refine ⟨fun mapping hmapping => ?_, ?_⟩
            · exact (hsincere.tracks mapping hmapping).of_write hwrite hother
                hl hmapping hmem
            · cases l <;> exact hbears
  world f x _ hs := by
    cases x with
    | call call =>
        refine ⟨hs, fun k hk => hk.of_same rfl ?_⟩
        show Later _ (f.shared.jobs.ask (call.effect c.protocol)).1.mem
        rw [Desk.ask_mem]
        exact later_of_change (Jobs.change_effect c.protocol call _)
    | settle ok =>
        refine ⟨hs, fun k hk => hk.of_same rfl ?_⟩
        show Later _ (f.shared.jobs.settle .store ok).mem
        rw [Desk.settle_mem]
        exact later_refl _
  restart f _ hs := ⟨hs.2, hs.2⟩

-- ====== runs

/-- The calls know what is true, and the file is the memory or one turn
ahead of it. -/
structure Steady (c : Context) (f : Flight Panel Stage)
    (past : List (Nat × Note)) : Prop where
  apart : Protocol.Apart (Stored c) Sincere (fun _ _ => True) f
  file : ∀ d, Turn past (mappingOf f d)
    (getRecordForMailDomain d f.shared.file)

/-- What one step does to the mapping of a mail domain. -/
structure Steps (c : Context) (f : Flight Panel Stage) (e : MappingEvent)
    (past : List (Nat × Note)) : Prop where
  steady : Steady c ((protocol c).machine.next f e)
    (past ++ (protocol c).machine.answer f e)
  turns : ∀ d, Turn (past ++ (protocol c).machine.answer f e)
    (mappingOf f d) (mappingOf ((protocol c).machine.next f e) d)

/-- The turns of a segment, in memory and between memory and the file. -/
theorem Acts.turns (id : Nat) (h : Acts c s free segment)
    (hfile : ∀ d, Turn past (getRecordForMailDomain d s.mappings)
      (getRecordForMailDomain d s.file)) (d : Uuid) :
    Turn (past ++ segment.2.2.map fun note => (id, note))
        (getRecordForMailDomain d s.mappings)
        (getRecordForMailDomain d segment.1.mappings)
      ∧ Turn (past ++ segment.2.2.map fun note => (id, note))
          (getRecordForMailDomain d segment.1.mappings)
          (getRecordForMailDomain d segment.1.file) := by
  cases h with
  | quiet hmem hfile' _ =>
      rw [hmem, hfile']
      exact ⟨.same _, (hfile d).mono fun _ => List.mem_append_left _⟩
  | wrote new next hwrite hmem hfile' _ =>
      have hturn : Turn (past ++ segment.2.2.map fun note => (id, note))
          (getRecordForMailDomain d s.mappings)
          (getRecordForMailDomain d next) := by
        by_cases hd : d = new.mailDomainId
        · subst hd
          rw [hwrite.writes.self]
          exact (hwrite.turn id).mono fun _ => List.mem_append_right _
        · rw [hwrite.writes.other d hd]
          exact .same _
      rw [hfile']
      rcases hmem with hmem | hmem
      · rw [hmem]
        exact ⟨.same _, hturn⟩
      · rw [hmem]
        exact ⟨hturn, .same _⟩

theorem Acts.completes (h : Acts c s free segment)
    (hnote : .completed mapping job ∈ segment.2.2) :
    Completes c s mapping job := by
  cases h with
  | quiet _ _ hnotes => exact absurd hnote (hnotes mapping job)
  | wrote _ _ _ _ _ hnotes => exact hnotes mapping job hnote

/-- What a step notes as completed is. -/
theorem completes_next {e : MappingEvent} (hok : Careful f e)
    (h : Protocol.Apart (Stored c) Sincere (fun _ _ => True) f) {id : Nat}
    (hnote : (id, .completed mapping job) ∈ (protocol c).machine.answer f e) :
    Completes c f.shared mapping job := by
  obtain ⟨env, k, rfl, hstage, hmem⟩ := Protocol.mem_answer hnote
  exact (resumes_resume h.shared.1 (h.calls id k hstage) (hok k hstage)
    env).acts.completes hmem

theorem steps_next {e : MappingEvent} (hok : Careful f e)
    (h : Steady c f past) :
    Steps c f e past := by
  have hapart := Protocol.apart_next (fun _ => trivial) keeps_sincere hok
    h.apart
  have hquiet : (protocol c).machine.answer f e = [] →
      ((protocol c).machine.next f e).shared.mappings = f.shared.mappings →
      ((protocol c).machine.next f e).shared.file = f.shared.file →
        Steps c f e past := by
    intro hanswer hmem hfile
    have hsame : ∀ d, mappingOf ((protocol c).machine.next f e) d
        = mappingOf f d := by
      intro d
      unfold mappingOf
      rw [hmem]
    refine ⟨⟨hapart, fun d => ?_⟩, fun d => ?_⟩
    · rw [hsame, hfile, hanswer, List.append_nil]
      exact h.file d
    · rw [hsame]
      exact .same _
  cases e with
  | start call => exact hquiet rfl rfl rfl
  | answer id env =>
      cases hstage : f.stage id with
      | none =>
          have hstep := (protocol c).step_answer_none env hstage
          exact hquiet (congrArg Prod.snd hstep)
            (congrArg (fun r => r.1.shared.mappings) hstep)
            (congrArg (fun r => r.1.shared.file) hstep)
      | some k =>
          have hstep := (protocol c).step_answer env hstage
          have hanswer : (protocol c).machine.answer f (.answer id env)
              = (f.shared.resume c k env).2.2.map fun note => (id, note) :=
            congrArg Prod.snd hstep
          have hshared : ((protocol c).machine.next f
              (.answer id env)).shared = (f.shared.resume c k env).1 :=
            congrArg (fun r => r.1.shared) hstep
          have hresumes := resumes_resume h.apart.shared.1
            (h.apart.calls id k hstage) (hok k hstage) env
          have hturns := hresumes.acts.turns id h.file
          refine ⟨⟨hapart, fun d => ?_⟩, fun d => ?_⟩
          · unfold mappingOf
            rw [hshared, hanswer]
            exact (hturns d).2
          · unfold mappingOf
            rw [hshared, hanswer]
            exact (hturns d).1
  | world x =>
      cases x with
      | call call => exact hquiet rfl rfl rfl
      | settle ok => exact hquiet rfl rfl rfl
  | restart =>
      have hanswer : (protocol c).machine.answer f .restart = [] := rfl
      refine ⟨⟨hapart, fun d => .same _⟩, fun d => ?_⟩
      rw [hanswer, List.append_nil]
      exact h.file d

/-- In every run that completes no deletion twice and begins no operation
under an identifier a continuation works with, the mappings are lawful. -/
theorem mappings_lawful (c : Context) (file : List Mapping)
    (jobs : List Job) (events : List MappingEvent)
    (hfile : Distinct file)
    (hfresh : ∀ mapping ∈ file, mapping.phase.evidence? = none)
    (h : (protocol c).machine.Allowed Careful (started file jobs) events) :
    Lawful c (started file jobs) events := by
  have hkept : Kept c file := by
    refine ⟨hfile, fun mapping hmapping evidence hevidence => ?_⟩
    rw [hfresh mapping hmapping] at hevidence
    cases hevidence
  have hstart : Steady c (started file jobs) [] :=
    ⟨Protocol.apart_fresh ⟨hkept, hkept⟩, fun _ => .same _⟩
  have hrun : ∀ before, (protocol c).machine.Allowed Careful
      (started file jobs) before →
        Steady c ((protocol c).machine.run (started file jobs) before)
          ((protocol c).notes (started file jobs) before) := by
    intro before hbefore
    have hend := Protocol.noted_run (P := Steady c)
      (fun f e past hok hf => (steps_next hok hf).steady) hbefore hstart
    rwa [List.nil_append] at hend
  refine ⟨(hrun events h).apart.shared.1.distinct,
    fun before e after heq d => ?_, ?_⟩
  · rw [heq, Machine.allowed_append] at h
    have hsteps := steps_next h.2.1 (hrun before h.1)
    rw [Protocol.notes_concat, Machine.run_append]
    exact hsteps.turns d
  · have hall := Machine.allowed_and_invariant
      (fun _ _ hok hf => Protocol.apart_next (fun _ => trivial)
        keeps_sincere hok hf) h hstart.apart
    intro x hx id mapping job hnote
    obtain ⟨hok, hapart⟩ := Machine.forall_mem_steps_of_allowed hall x hx
    exact completes_next hok hapart hnote

section Samples

def sampleUuid (last : Fin 10) : Uuid where
  text := "00000000-0000-4000-8000-00000000000" ++ toString last.val
  shaped := Uuid.shaped_zeros last

def sampleSha : Sha256 :=
  ⟨"aaaaaaaaaaaaaaaaaaaaaaaaaaaaaaaaaaaaaaaaaaaaaaaaaaaaaaaaaaaaaaaa",
    Eq.refl true⟩

def sampleRendered : Rendered where
  configSha256 := sampleSha
  fpmSha256 := sampleSha
  nginxSha256 := sampleSha
  databasePath := "/var/lib/roundcube/db.sqlite"
  publicRoot := "/var/lib/roundcube/public_html"
  fpmSocketPath := "/run/php/yunpanel-roundcube.sock"
  fpmServiceUnit := "php8.3-fpm.service"
  nginxServiceUnit := "nginx.service"
  webEndpoint := "https://mail.example.com/"

/-- A context in which all hashes and all times are the same. -/
def sampleContext : Context where
  net := Domains.asciiPlatform.toNet
  isoDate _ := "2024-01-01T00:00:00.000Z"
  digest _ := sampleSha
  render _ _ _ := some sampleRendered
  proto :=
    { envelopeError := fun _ _ _ => none
      sanitizeResult := fun _ result => .ok result
      safeLocalOperationError := id
      idempotencyDigest := fun work => work.type ++ work.resourceId }

/-- The mapping of a mail domain, in some phase. -/
def sampleMapping : Mapping where
  id := sampleUuid 1
  mailDomainId := sampleUuid 2
  webDomainId := sampleUuid 3
  serverId := sampleUuid 4
  domainName := "example.com"
  certificateId := sampleUuid 5
  certificateFingerprint256 :=
    ⟨":".intercalate (List.replicate 32 "AB"), by decide +kernel⟩
  revision := ⟨1, by decide⟩
  phase := .active
  createdAt := ⟨1⟩
  updatedAt := ⟨1⟩

/-- Everything outside answers, and all writes land. -/
def sampleEnv : Env where
  lookups := ⟨.unavailable, .unavailable, .unavailable, .unavailable⟩
  now := ⟨2⟩
  randomUUID := sampleUuid 6
  written := .landed
  readable := true
  ready := .ok true
  materials :=
    { identity := .ok
        ⟨"mail.example.com", sampleUuid 7, "AB", "/full", "/key", 1⟩
      secret := .ok ⟨"secret", 1⟩
      certificates := ⟨fun _ => .unavailable, fun _ _ => .unavailable⟩ }
  jobId := sampleUuid 8
  jobNow := ⟨3⟩

def sampleTurns (id n : Nat) : List MappingEvent :=
  List.replicate n (.answer id sampleEnv)

/-- The deletion of the mapping as its preview confirms it. -/
def sampleDelete : Call :=
  .beginDelete
    { mailDomainId := sampleMapping.mailDomainId.json
      expectedRevision := sampleMapping.revision.json
      previewDigest := sampleSha.json
      confirmation := .str
        (sampleMapping.deleteConfirmation sampleContext.toPlatform)
      operationId := none }

def sampleOperation : Reference :=
  ⟨(sampleUuid 6).text, by decide +kernel⟩

/-- The continuation of the deletion. -/
def sampleContinue : Call :=
  .continueOperation
    { mailDomainId := sampleMapping.mailDomainId.json
      operationId := sampleOperation.json
      expectedUpdatedAt := "2024-01-01T00:00:00.000Z"
      confirmation := .str (sampleContext.joined
        { sampleMapping with revision := ⟨2, by decide⟩ } sampleOperation) }

/-- The mapping is deleted up to its job, and the job succeeds. -/
def sampleApplied : List MappingEvent :=
  .start sampleDelete :: sampleTurns 0 2
    ++ .start sampleContinue :: sampleTurns 1 6
    ++ .world (.settle true) :: sampleTurns 1 2
    ++ [.world (.call (.claimNext (sampleUuid 4).text ⟨4⟩)),
      .world (.settle true),
      .world (.call (.complete
        { serverId := (sampleUuid 4).text
          jobId := (sampleUuid 8).text
          status := "succeeded"
          result := .obj [("previewSha256", sampleSha.json),
            ("nginxSha256", sampleSha.json), ("httpHealthy", .bool true),
            ("applied", .bool true)]
          error := .null } ⟨5⟩)),
      .world (.settle true)]

/-- A continuation reads the job and completes the deletion. -/
def sampleAlone : List MappingEvent :=
  sampleApplied ++ .start sampleContinue :: sampleTurns 2 3

theorem mappings_lawful_alone :
    Distinct [sampleMapping]
      ∧ (∀ mapping ∈ [sampleMapping], mapping.phase.evidence? = none)
      ∧ Lawful sampleContext (started [sampleMapping] []) sampleAlone := by
  have hdistinct : Distinct [sampleMapping] := by decide +kernel
  have hfresh : ∀ mapping ∈ [sampleMapping],
      mapping.phase.evidence? = none := by
    decide +kernel
  exact ⟨hdistinct, hfresh, mappings_lawful sampleContext [sampleMapping] []
    sampleAlone hdistinct hfresh (by decide +kernel)⟩

/-- Two continuations read the job, and then both complete the
deletion. -/
def sampleTwice : List MappingEvent :=
  sampleApplied ++ .start sampleContinue :: sampleTurns 2 2
    ++ .start sampleContinue :: sampleTurns 3 2 ++ sampleTurns 2 1

/-- The second completion makes the removed mapping active. -/
theorem removed_again_active :
    ¬Lawful sampleContext (started [sampleMapping] [])
      (sampleTwice ++ sampleTurns 3 1) := by
  intro h
  have hturn := h.turns sampleTwice (.answer 3 sampleEnv) [] rfl
    sampleMapping.mailDomainId
  have hbefore : (mappingOf ((protocol sampleContext).machine.run
      (started [sampleMapping] []) sampleTwice)
      sampleMapping.mailDomainId).map (fun mapping => mapping.phase.isRemoved)
      = some true := by
    decide +kernel
  have hafter : (mappingOf ((protocol sampleContext).machine.run
      (started [sampleMapping] [])
      (sampleTwice ++ [.answer 3 sampleEnv])) sampleMapping.mailDomainId).map
      Mapping.phase = some .active := by
    decide +kernel
  obtain ⟨old, hold, hremoved⟩ := Option.map_eq_some_iff.mp hbefore
  obtain ⟨new, hnew, hactive⟩ := Option.map_eq_some_iff.mp hafter
  rw [hold, hnew] at hturn
  exact hturn.ne_active hremoved hactive

end Samples

example : hostnameOf "a" = "webmail.a" := by decide +kernel

end Yunpanel.Roundcube
