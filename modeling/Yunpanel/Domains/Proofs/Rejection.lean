/-
What a rejected call leaves behind.

A call that is refused, whichever record its check fails on, has changed
nothing: the loops of the calls on several records check all of them before
they change the first. But a call whose write fails is rejected after its
change, and nothing takes the change back. `rejected_unchanged_iff` says
when that can be told: the write failed, and the record was not already
what the call makes of it.
-/
import Yunpanel.Domains.Proofs.Storable

namespace Yunpanel.Domains

open Lib

-- ====== repeating

/-- The record is already staged as a request asks, by the same clock. -/
def Domain.stagedAlready (checksum configName : String) (now : Instant)
    (d : Domain) : Bool :=
  d.stagedRevision == d.desiredRevision
    && d.stagedChecksum == some checksum
    && d.stagedConfigName == some configName
    && d.lastStagedAt == some now && d.state == .staged
    && d.lastError.isNone && d.updatedAt == now

def Domain.appliedAlready (now : Instant) (d : Domain) : Bool :=
  d.appliedRevision == d.desiredRevision
    && d.appliedPrimaryDomain == some d.primaryDomain
    && d.state == .active && d.lastAppliedAt == some now
    && d.lastError.isNone && d.updatedAt == now

def Domain.failedAlready (code : String) (now : Instant) (d : Domain) :
    Bool :=
  d.state == .error && d.lastError == some code && d.updatedAt == now

theorem staged_eq_self {checksum configName : String} {now : Instant}
    {d : Domain} : d.staged checksum configName now = d ↔
      d.stagedAlready checksum configName now = true := by
  simp only [Domain.stagedAlready, Bool.and_eq_true, beq_iff_eq,
    Option.isNone_iff_eq_none]
  constructor
  · intro h
    have hrevision := congrArg Domain.stagedRevision h
    have hchecksum := congrArg Domain.stagedChecksum h
    have hname := congrArg Domain.stagedConfigName h
    have hat := congrArg Domain.lastStagedAt h
    have hstate := congrArg Domain.state h
    have herror := congrArg Domain.lastError h
    have hupdated := congrArg Domain.updatedAt h
    exact ⟨⟨⟨⟨⟨⟨hrevision.symm, hchecksum.symm⟩, hname.symm⟩, hat.symm⟩,
      hstate.symm⟩, herror.symm⟩, hupdated.symm⟩
  · rintro ⟨⟨⟨⟨⟨⟨hrevision, hchecksum⟩, hname⟩, hat⟩, hstate⟩, herror⟩,
      hupdated⟩
    cases d
    dsimp only at hrevision hchecksum hname hat hstate herror hupdated
    subst hrevision hchecksum hname hat hstate herror hupdated
    rfl

theorem applied_eq_self {now : Instant} {d : Domain} :
    d.applied now = d ↔ d.appliedAlready now = true := by
  simp only [Domain.appliedAlready, Bool.and_eq_true, beq_iff_eq,
    Option.isNone_iff_eq_none]
  constructor
  · intro h
    have hrevision := congrArg Domain.appliedRevision h
    have hprimary := congrArg Domain.appliedPrimaryDomain h
    have hstate := congrArg Domain.state h
    have hat := congrArg Domain.lastAppliedAt h
    have herror := congrArg Domain.lastError h
    have hupdated := congrArg Domain.updatedAt h
    exact ⟨⟨⟨⟨⟨hrevision.symm, hprimary.symm⟩, hstate.symm⟩, hat.symm⟩,
      herror.symm⟩, hupdated.symm⟩
  · rintro ⟨⟨⟨⟨⟨hrevision, hprimary⟩, hstate⟩, hat⟩, herror⟩, hupdated⟩
    cases d
    dsimp only at hrevision hprimary hstate hat herror hupdated
    subst hrevision hprimary hstate hat herror hupdated
    rfl

theorem failed_eq_self {code : String} {now : Instant} {d : Domain} :
    d.failed code now = d ↔ d.failedAlready code now = true := by
  simp only [Domain.failedAlready, Bool.and_eq_true, beq_iff_eq]
  constructor
  · intro h
    have hstate := congrArg Domain.state h
    have herror := congrArg Domain.lastError h
    have hupdated := congrArg Domain.updatedAt h
    exact ⟨⟨hstate.symm, herror.symm⟩, hupdated.symm⟩
  · rintro ⟨⟨hstate, herror⟩, hupdated⟩
    rw [Domain.failed, ← hstate, ← herror, ← hupdated]

/-- A record a call finds. -/
def foundAnd (domains : List Domain) (id : String) (p : Domain → Bool) :
    Bool :=
  match requireDomain domains id with
  | .ok (_, d) => p d
  | .error _ => false

/-- The call writes what is there already: a mark that the record carries
from the same moment, or a change of a record no longer listed. -/
def Call.repeats (env : Env) (domains : List Domain) : Call → Bool
  | markStaged id checksum configName =>
      foundAnd domains id (Domain.stagedAlready checksum configName env.now)
  | markApplied id _ =>
      foundAnd domains id (Domain.appliedAlready env.now)
  | markFailed id errorCode =>
      foundAnd domains id (Domain.failedAlready
        (if isErrorCode errorCode then errorCode else "apply_failed")
        env.now)
  | bindWebsite _ _ (some _) => true
  | _ => false

/-- The call passes its checks and comes to its write. -/
def Call.writes (platform : Platform) (env : Env) (domains : List Domain)
    (c : Call) : Bool :=
  match c.effect platform env domains with
  | .written _ _ => true
  | _ => false

-- ====== changed or not

variable {domains next : List Domain}
  {r : List Domain → Except Failure Reply}

/-- A turn that changes its record changes the list. -/
theorem ne_of_turn {id : String} {turn : Domain → Except Failure Verdict}
    (hturn : ∀ {d d' reply}, turn d = .ok (.changed d' reply) →
      Touch d d' ∧ d' ≠ d) (h : onDomain id turn domains = .written next r) :
    next ≠ domains := by
  obtain ⟨i, d, d', reply, hi, -, hd, rfl⟩ := onDomain_written h
  exact fun hsame => (hturn hd).2 ((set_eq_self hi).mp hsame)

/-- A mark leaves the list alone exactly where the record it finds carries
it already. -/
theorem eq_iff_of_mark {id : String}
    {turn : Domain → Except Failure Verdict} {p : Domain → Bool}
    (hturn : ∀ {d d' reply}, turn d = .ok (.changed d' reply) →
      (d' = d ↔ p d = true))
    (h : onDomain id turn domains = .written next r) :
    next = domains ↔ foundAnd domains id p = true := by
  unfold onDomain at h
  unfold foundAnd
  split at h
  · cases h
  · rename_i i d hfound
    split at h
    · cases h
    · cases h
    · rename_i d' reply hd
      cases h
      rw [hfound]
      exact (set_eq_self (getElem?_of_requireDomain hfound).1).trans
        (hturn hd)

/-- The last target that is not settled is written over. -/
theorem exists_changed_of_provision {rule : ProvisionRule} {now : Instant}
    {targets : List ProvisionTarget}
    (hopen : targets.all ProvisionTarget.settled = false)
    {cur : List Domain} (hready : ∀ t ∈ targets, Ready rule domains t)
    (hlen : cur.length = domains.length) :
    ∃ t ∈ targets, t.settled = false
      ∧ (provision rule now targets cur)[t.index]?
        = some (rule.changed now t.domain) := by
  induction targets generalizing cur with
  | nil => cases hopen
  | cons t rest ih =>
      rw [List.forall_mem_cons] at hready
      rw [provision]
      by_cases hrest : rest.all ProvisionTarget.settled = true
      · -- nothing after this one writes
        have hstays : ∀ (ts : List ProvisionTarget) (ds : List Domain),
            ts.all ProvisionTarget.settled = true →
            provision rule now ts ds = ds := by
          intro ts
          induction ts with
          | nil => exact fun _ _ => rfl
          | cons u us ihs =>
              intro ds hall
              rw [List.all_cons, Bool.and_eq_true] at hall
              rw [provision, if_pos hall.1]
              exact ihs ds hall.2
        have ht : t.settled = false := by
          rw [List.all_cons, hrest, Bool.and_true] at hopen
          exact hopen
        obtain ⟨hlt, -⟩ :=
          List.getElem?_eq_some_iff.mp hready.1.at_index
        refine ⟨t, List.mem_cons_self, ht, ?_⟩
        rw [hstays rest _ hrest, if_neg (by simp [ht])]
        exact List.getElem?_set_self (by omega)
      · rw [Bool.not_eq_true] at hrest
        have hlen' : (if t.settled then cur else cur.set t.index
            (rule.changed now t.domain)).length = domains.length := by
          split
          · exact hlen
          · rw [List.length_set]
            exact hlen
        obtain ⟨u, hu, hsettled, hget⟩ := ih hrest hready.2 hlen'
        exact ⟨u, List.mem_cons_of_mem t hu, hsettled, hget⟩

variable {platform : Platform} {env : Env} {c : Call}

theorem ne_of_provision {rule : ProvisionRule} {req : Provisioning}
    {now : Instant}
    (hrule : ∀ (entry : ProvisionedDomain) d, rule.ready entry d = true →
      rule.changed now d ≠ d)
    (h : provisionDomains platform rule req now domains = .written next r) :
    next ≠ domains := by
  obtain ⟨-, targets, hready, hopen, rfl⟩ := provisionDomains_written h
  obtain ⟨t, ht, hsettled, hget⟩ :=
    exists_changed_of_provision hopen hready rfl
  obtain ⟨entry, -, hchange⟩ := (hready t ht).ready hsettled
  intro hsame
  rw [hsame, (hready t ht).at_index] at hget
  exact hrule entry t.domain hchange (Option.some.inj hget).symm

/-- What a call writes is what is there already exactly where it
repeats. -/
theorem eq_iff_repeats (h : c.effect platform env domains = .written next r) :
    next = domains ↔ c.repeats env domains = true := by
  have hne : next ≠ domains → c.repeats env domains = false →
      (next = domains ↔ c.repeats env domains = true) := by
    intro hne hrepeats
    rw [hrepeats]
    exact ⟨fun hsame => absurd hsame hne, fun hfalse => by cases hfalse⟩
  cases c with
  | listDomains | getDomain | previewDomainReparent | previewDomainUpdate =>
      exact (written_of_ofResult h).elim
  | reparentDomain => exact hne (reparentDomain_written h).2 rfl
  | updateDomain => exact hne (updateDomain_written h).2 rfl
  | createDomain => exact hne (createDomain_written h).2 rfl
  | finalizeDomainRemoval =>
      exact hne (finalizeDomainRemoval_after (e := .store) (.inl h)).2 rfl
  | bindWebsite domainId websiteId removed =>
      cases removed with
      | none => exact hne (ne_of_turn bindWebsite_turn h) rfl
      | some removed =>
          exact ⟨fun _ => rfl, fun _ => bindRemoved_written h⟩
  | rollbackWebsiteBinding =>
      exact hne (ne_of_turn rollbackWebsiteBinding_turn h) rfl
  | detachWebsiteForRemoval =>
      exact hne (ne_of_turn detachWebsiteForRemoval_turn h) rfl
  | detachCertificateForRemoval =>
      exact hne (ne_of_turn detachCertificateForRemoval_turn h) rfl
  | attachCertificate =>
      exact hne (ne_of_turn attachCertificate_turn h) rfl
  | markSuspended => exact hne (ne_of_turn markSuspended_turn h) rfl
  | markResumed => exact hne (ne_of_turn markResumed_turn h) rfl
  | activateProvisionedDomains req =>
      refine hne (ne_of_provision (fun entry d hready => ?_) h) rfl
      apply ne_of_apply_ne Domain.state
      rw [pristine_state hready]
      show DomainState.active ≠ .draft
      decide
  | resetProvisionedDomains req =>
      refine hne (ne_of_provision (fun entry d hready => ?_) h) rfl
      have hready' : (d.certificateId.isNone && d.activeOn
          entry.expectedRevision req.checksum req.configName) = true := hready
      rw [Bool.and_eq_true] at hready'
      apply ne_of_apply_ne Domain.state
      rw [activeOn_state hready'.2]
      show DomainState.draft ≠ .active
      decide
  | markStaged =>
      apply eq_iff_of_mark _ h
      intro d d' reply hd
      rw [(markStaged_spec hd).2.2]
      exact staged_eq_self
  | markApplied =>
      apply eq_iff_of_mark _ h
      intro d d' reply hd
      rw [(markApplied_spec hd).2.2.2]
      exact applied_eq_self
  | markFailed =>
      apply eq_iff_of_mark _ h
      intro d d' reply hd
      rw [(markFailed_spec hd).2]
      exact failed_eq_self

-- ====== rejection

/-- Once a write has reached the file its caller is answered, not
rejected. -/
theorem reply_of_written
    (h : c.effect platform env domains = .written next r) :
    ∀ ds, ∃ reply, r ds = .ok reply := by
  have hturn : ∀ {id turn},
      onDomain id turn domains = .written next r →
      ∀ ds, ∃ reply, r ds = .ok reply := by
    intro id turn h ds
    unfold onDomain at h
    split at h
    · cases h
    · split at h
      · cases h
      · cases h
      · cases h
        exact ⟨_, rfl⟩
  have hprovision : ∀ {rule req now},
      provisionDomains platform rule req now domains = .written next r →
      ∀ ds, ∃ reply, r ds = .ok reply := by
    intro rule req now h ds
    unfold provisionDomains at h
    split at h
    · cases h
    · split at h
      · cases h
      · dsimp only at h
        split at h
        · cases h
        · cases h
          exact ⟨_, rfl⟩
  cases c with
  | listDomains | getDomain | previewDomainReparent | previewDomainUpdate =>
      exact (written_of_ofResult h).elim
  | reparentDomain id parent digest =>
      intro ds
      change reparentDomain platform id parent digest env.now domains = _ at h
      unfold reparentDomain at h
      split at h
      · cases h
      · split at h
        · cases h
        · dsimp only at h
          split at h
          · cases h
          · cases h
            exact ⟨_, rfl⟩
  | updateDomain id changes digest =>
      intro ds
      change updateDomain platform id changes digest env.now domains = _ at h
      unfold updateDomain at h
      split at h
      · cases h
      · split at h
        · cases h
        · dsimp only at h
          split at h
          · cases h
          · cases h
            exact ⟨_, rfl⟩
  | createDomain req =>
      intro ds
      change createDomain platform.toNet env req domains = _ at h
      unfold createDomain at h
      split at h
      · cases h
      · split at h
        · split at h <;> cases h
        · cases h
          exact ⟨_, rfl⟩
  | finalizeDomainRemoval id evidence confirmation =>
      intro ds
      change finalizeDomainRemoval platform id evidence confirmation domains
        = _ at h
      unfold finalizeDomainRemoval at h
      split at h
      · cases h
      · dsimp only at h
        split at h
        · cases h
        · cases h
          exact ⟨_, rfl⟩
  | bindWebsite id websiteId removed =>
      cases removed with
      | none => exact hturn h
      | some removed =>
          intro ds
          change bindRemoved platform.toNet env websiteId removed domains
            = _ at h
          unfold bindRemoved at h
          split at h
          · cases h
          · cases h
          · cases h
            exact ⟨_, rfl⟩
  | activateProvisionedDomains | resetProvisionedDomains =>
      exact hprovision h
  | rollbackWebsiteBinding | detachWebsiteForRemoval
  | detachCertificateForRemoval | attachCertificate | markStaged
  | markApplied | markSuspended | markResumed | markFailed =>
      exact hturn h

/-- A call that is awaited on valid domains and then rejected leaves them as
they were exactly where its write reaches the file, or it comes to no write,
or it writes what is there already. -/
theorem awaited_unchanged_iff (platform : Platform) {r : Registry}
    (hvalid : Valid r.mem) (env : Env) (c : Call) {oks : List Bool} (ok : Bool)
    (hlen : oks.length = r.queue.length) :
    let after := r.await .store oks ok (c.effect platform env)
    (((∃ e, after.2 = .rejected e) → after.1.mem = r.mem) ↔
      ((r.broken || !oks.all id || !ok) = false
        ∨ c.writes platform env r.mem = false
        ∨ c.repeats env r.mem = true)) := by
  intro after
  have hclean : (c.effect platform env r.mem).Clean :=
    clean_of_valid hvalid
  obtain ⟨hmem, hanswer⟩ : after.1.mem = _ ∧ after.2 = _ :=
    Store.await_of_queue .store ok hlen (c.effect platform env)
  rw [hmem, hanswer]
  unfold Call.writes
  cases he : c.effect platform env r.mem with
  | refused e => simp
  | spoiled s e =>
      rw [he] at hclean
      exact hclean.elim
  | replied a => simp
  | written next reply =>
      have hsame := eq_iff_repeats he
      dsimp only [Effect.after_written]
      by_cases hlost : (r.broken || !oks.all id || !ok) = true
      · rw [if_pos hlost, hlost]
        constructor
        · intro hkeep
          exact .inr (.inr (hsame.mp (hkeep ⟨.store, rfl⟩)))
        · rintro (hfalse | hfalse | hrepeats)
          · cases hfalse
          · cases hfalse
          · exact fun _ => hsame.mpr hrepeats
      · rw [if_neg hlost]
        refine ⟨fun _ => .inl (Bool.eq_false_iff.mpr hlost), ?_⟩
        rintro - ⟨e, hrejected⟩
        obtain ⟨answer, hreply⟩ := reply_of_written he next
        rw [hreply] at hrejected
        cases hrejected

/-- In every state a registry can reach from a valid store, whatever
writes are on their way, a call that is rejected leaves the domains as they
were if and only if its write reaches the file, or it does not come to a
write, or it writes what is there already. -/
theorem rejected_unchanged_iff (platform : Platform) {domains : List Domain}
    (h : Valid domains) (events : List Event) (env : Env) (c : Call)
    (oks : List Bool) (ok : Bool) :
    let r := (machine platform).run (Store.opened domains) events
    let after := r.await .store oks ok (c.effect platform env)
    oks.length = r.queue.length →
      (((∃ e, after.2 = .rejected e) → after.1.mem = r.mem) ↔
        ((r.broken || !oks.all id || !ok) = false
          ∨ c.writes platform env r.mem = false
          ∨ c.repeats env r.mem = true)) := by
  intro r after hlen
  have hvalid : Valid r.mem :=
    (holds_run (fun hv hc => valid_of_change hv hc)
      (Store.holds_opened h) events).mem
  exact awaited_unchanged_iff platform hvalid env c ok hlen

/-- One domain is in the store, its write still on its way. -/
def pendingEvents : List Event :=
  [.call (envWith firstDomainId)
    (.createDomain (staticRequest "example.org" none))]

theorem rejected_unchanged_iff_pending :
    let r := (machine asciiPlatform).run (Store.opened []) pendingEvents
    let c : Call := .createDomain (staticRequest "docs.example.org" none)
    let after := r.await .store [true] false
      (c.effect asciiPlatform (envWith secondDomainId))
    [true].length = r.queue.length
      ∧ (((∃ e, after.2 = .rejected e) → after.1.mem = r.mem) ↔
        ((r.broken || !([true].all id) || !false) = false
          ∨ c.writes asciiPlatform (envWith secondDomainId) r.mem = false
          ∨ c.repeats (envWith secondDomainId) r.mem = true)) :=
  ⟨by decide +kernel,
    rejected_unchanged_iff asciiPlatform valid_nil pendingEvents
      (envWith secondDomainId)
      (.createDomain (staticRequest "docs.example.org" none)) [true] false
      (by decide +kernel)⟩

/-- A domain whose creation is rejected, because its write fails, is listed
from then on. -/
theorem rejected_creation_stays :
    ¬ ∀ (domains : List Domain) (c : Call) (ok : Bool),
      let r : Registry := Store.opened domains
      let after := r.await .store [] ok
        (c.effect asciiPlatform (envWith firstDomainId))
      (∃ e, after.2 = .rejected e) → after.1.mem = r.mem := by
  intro hclaim
  have hempty := hclaim []
    (.createDomain (staticRequest "example.org" none)) false
    ⟨.store, rfl⟩
  have hlisted : (((Store.opened [] : Registry).await .store [] false
      ((Call.createDomain (staticRequest "example.org" none)).effect
        asciiPlatform (envWith firstDomainId))).1.mem.map
      Domain.primaryDomain) = ["example.org"] := by
    decide +kernel
  rw [hempty] at hlisted
  cases hlisted

example : Text.isLower 'a' = true := by decide +kernel

end Yunpanel.Domains
