/-
Retrying the resumption of a website.

The retry hands every child that is not recorded as resumed to `resume`,
the entry for children that were never attempted. So where all children can
be resumed (`Workable`) the website ends resumed exactly if every child
still to be resumed is `suspended`, each of them named once
(`retryResume_resumes_iff`); a child in `resuming` or `resume_failed`, or one
that was resumed without the website having heard of it, stays as it is and
fails the retry.

The argument is an induction on the entries. One that goes through without
a failure had a suspended child and leaves it resumed, and the journal is
otherwise the same (`retryEntries_spec`); conversely a suspended child whose
restore and commit work goes through, and those after it still can
(`retryEntries_works`).
-/
import Yunpanel.Domains.Proofs.Runs
import Yunpanel.Suspension.Proofs.Runtime
import Yunpanel.Suspension.Proofs.WebsiteJournal
import Yunpanel.Suspension.WebsiteRuntime

namespace Yunpanel.WebsiteSuspension

open Json Lib Lib.Exec Lib.Result
open Suspension (SafeId Thrown Surroundings Panel Run Steady Workable Aside)
open Runtime

variable {η : Type} {env : Surroundings η}

-- ====== naming

/-- The child an entry names. -/
def Named (journal : List Suspension.Operation) (entry : Entry)
    (child : Suspension.Operation) : Prop :=
  ∃ id, entry.operationId = some id
    ∧ Suspension.findOperation journal id.text = some child

/-- The entries not recorded as resumed. -/
def pending (entries : List Entry) : List Entry :=
  entries.filter fun entry => entry.status ≠ .resumed

/-- Every child still to be resumed is suspended, and named once. -/
structure Drivable (journal : List Suspension.Operation)
    (entries : List Entry) : Prop where
  suspended : ∀ entry ∈ pending entries, ∃ child,
    Named journal entry child ∧ child.status = .suspended
  apart : ((pending entries).map Entry.operationId).Nodup

variable {journal : List Suspension.Operation} {entry : Entry}
  {child : Suspension.Operation} {ops : List Operation} {op : Operation}

theorem Named.text (h : Named journal entry child) :
    entry.operationId = some child.id := by
  obtain ⟨id, hid, hfound⟩ := h
  have htext := Suspension.findOperation_id hfound
  rw [hid, Matching.ext_text htext]

theorem Named.found (h : Named journal entry child) :
    Suspension.findOperation journal child.id.text = some child := by
  obtain ⟨id, hid, hfound⟩ := h
  rw [Suspension.findOperation_id hfound]
  exact hfound

variable {other : Suspension.Operation} {p : Panel η}
  {domains : List Domains.Domain} {next : Operation} {id : Json}
  {changes : Changes}

theorem Named.unique (h : Named journal entry child)
    (h' : Named journal entry other) :
    child = other := by
  have hid : child.id = other.id :=
    Option.some.inj (h.text.symm.trans h'.text)
  have hfound := h.found
  rw [hid, h'.found] at hfound
  exact (Option.some.inj hfound).symm

/-- An entry names what it named where its operation is the same. -/
theorem Named.of_find {journal' : List Suspension.Operation}
    (h : Named journal entry child)
    (hsame : Suspension.findOperation journal' child.id.text
      = Suspension.findOperation journal child.id.text) :
    Named journal' entry child :=
  ⟨child.id, h.text, hsame.trans h.found⟩

-- ====== one child

/-- Apart from the operation of an entry, the journal is as it was; no
website has changed. -/
structure Beside (entry : Entry) (p t : Panel η) : Prop where
  websites : t.websites = p.websites
  journal : ∀ id : SafeId, entry.operationId ≠ some id →
    Suspension.findOperation t.journal id.text
      = Suspension.findOperation p.journal id.text

theorem Beside.refl (entry : Entry) (p : Panel η) : Beside entry p p :=
  ⟨rfl, fun _ _ => rfl⟩

theorem Beside.of_aside {domainId : String} {t : Panel η}
    (hid : entry.operationId = some child.id)
    (h : Aside child.id.text domainId p t) : Beside entry p t where
  websites := h.websites
  journal id hne := by
    apply h.journal
    intro htext
    exact hne (by rw [hid, Matching.ext_text htext])

/-- The child that an entry goes through with was suspended, and is
resumed. -/
def WentThrough (entry : Entry) (p t : Panel η) : Prop :=
  (∃ child, Named p.journal entry child ∧ child.status = .suspended)
    ∧ ∃ child, Named t.journal entry child ∧ child.status = .resumed

theorem resumeChild_spec (entry : Entry) (p : Panel η) :
    Meets (resumeChild env entry) p
      (fun driven t => Beside entry p t
        ∧ (driven.status = .resumed → WentThrough entry p t))
      (fun _ t => Beside entry p t) := by
  unfold resumeChild
  cases hentry : entry.operationId with
  | none =>
      refine Meets.bind (R := fun _ _ => False) ?_ fun _ _ h => h.elim
      exact ⟨fun _ h => (by cases h), fun _ _ => Beside.refl entry p⟩
  | some id =>
      refine (Suspension.getOperation_spec id p _).bind ?_
      rintro found t ⟨rfl, rfl⟩
      cases hfound : Suspension.findOperation t.journal id.text with
      | none => exact meets_fail (Beside.refl entry t)
      | some child =>
          have hnamed : Named t.journal entry child := ⟨id, hentry, hfound⟩
          have hinput : (resumeInput child).operationId = child.id.json := rfl
          refine Meets.bind ((Suspension.resume_spec hinput
            hnamed.found).mono (fun _ _ h => h) fun _ u hu =>
              Beside.of_aside hnamed.text hu) ?_
          rintro op u ⟨hstatus, haside, hop⟩
          refine meets_pure ⟨Beside.of_aside hnamed.text haside, ?_⟩
          intro hresumed
          exact ⟨⟨child, hnamed, hstatus⟩,
            op, ⟨child.id, hnamed.text, hop⟩, hresumed⟩

/-- A turn of the loop throws nothing; where it is no failure the child
went through, or the entry was recorded as resumed. -/
theorem retryEntry_spec (entry : Entry) (p : Panel η) :
    Meets (retryEntry env entry) p
      (fun out t => (entry.status = .resumed → t = p)
        ∧ Beside entry p t
        ∧ (out.2 = false → entry.status ≠ .resumed →
          WentThrough entry p t))
      (fun _ _ => False) := by
  unfold retryEntry
  refine meets_ite (fun h => ?_) fun h => ?_
  · exact meets_pure ⟨fun _ => rfl, Beside.refl entry p,
      fun _ hne => absurd h hne⟩
  · have hspec : Meets (resumeChild env entry) p _ _ :=
      resumeChild_spec entry p
    refine Meets.bind (R := fun r t => Beside entry p t
      ∧ ∀ driven, r = .ok driven → driven.status = .resumed →
        WentThrough entry p t) ⟨?_, fun _ he => by cases he⟩ ?_
    · intro r hr
      obtain rfl : (resumeChild env entry p).1 = r := Except.ok.inj hr
      cases hout : (resumeChild env entry p).1 with
      | ok driven =>
          have hmet := hspec.1 driven hout
          refine ⟨hmet.1, fun other hother => ?_⟩
          obtain rfl := Except.ok.inj hother
          exact hmet.2
      | error e =>
          exact ⟨hspec.2 e hout, fun _ hother => by cases hother⟩
    · rintro r t ⟨hbeside, hthrough⟩
      cases r with
      | error e =>
          exact meets_pure ⟨fun hr => absurd hr h, hbeside,
            fun hfalse => by cases hfalse⟩
      | ok driven =>
          refine meets_pure ⟨fun hr => absurd hr h, hbeside, fun hfalse _ => ?_⟩
          refine hthrough driven rfl ?_
          simpa using hfalse

-- ====== the loop

/-- Entries still to be resumed, with one that is recorded as resumed in
front of them, or one that is not. -/
theorem pending_cons_of_resumed (rest : List Entry)
    (h : entry.status = .resumed) : pending (entry :: rest) = pending rest :=
  List.filter_cons_of_neg (by simp [h])

theorem pending_cons_of_ne (rest : List Entry) (h : entry.status ≠ .resumed) :
    pending (entry :: rest) = entry :: pending rest :=
  List.filter_cons_of_pos (by simp [h])

/-- A loop without a failure had suspended children only, each named once,
and leaves them resumed. -/
theorem retryEntries_spec (entries : List Entry) (p : Panel η) :
    Meets (retryEntries env entries) p
      (fun out t => t.websites = p.websites
        ∧ (∀ id : SafeId, some id ∉ (pending entries).map Entry.operationId →
          Suspension.findOperation t.journal id.text
            = Suspension.findOperation p.journal id.text)
        ∧ (out.2 = false → Drivable p.journal entries
          ∧ ∀ entry ∈ pending entries, ∃ child,
            Named t.journal entry child ∧ child.status = .resumed))
      (fun _ _ => False) := by
  induction entries generalizing p with
  | nil =>
      refine meets_pure ⟨rfl, fun _ _ => rfl, fun _ => ⟨⟨?_, ?_⟩, ?_⟩⟩
      · intro entry h
        cases h
      · exact List.nodup_nil
      · intro entry h
        cases h
  | cons entry rest ih =>
      refine (retryEntry_spec entry p).bind ?_
      rintro ⟨driven, failed⟩ t ⟨hkept, hbeside, hthrough⟩
      refine (ih t).bind ?_
      rintro ⟨others, hasFailure⟩ u ⟨hwebsites, hjournal, hall⟩
      refine meets_pure ⟨hwebsites.trans hbeside.websites, ?_⟩
      by_cases hstatus : entry.status = .resumed
      · obtain rfl := hkept hstatus
        rw [pending_cons_of_resumed rest hstatus]
        refine ⟨hjournal, fun hfalse => ?_⟩
        obtain ⟨hdrivable, hresumed⟩ :=
          hall (Bool.or_eq_false_iff.mp hfalse).2
        refine ⟨⟨?_, ?_⟩, hresumed⟩
        · rw [pending_cons_of_resumed rest hstatus]
          exact hdrivable.suspended
        · rw [pending_cons_of_resumed rest hstatus]
          exact hdrivable.apart
      · rw [pending_cons_of_ne rest hstatus]
        simp only [List.map_cons, List.mem_cons, not_or]
        refine ⟨fun id hid => ?_, fun hfalse => ?_⟩
        · rw [hjournal id hid.2, hbeside.journal id (Ne.symm hid.1)]
        · obtain ⟨hfailed, hrest⟩ := Bool.or_eq_false_iff.mp hfalse
          obtain ⟨⟨child, hnamed, hsuspended⟩, child', hnamed', hresumed⟩ :=
            hthrough hfailed hstatus
          obtain ⟨hdrivable, hothers⟩ := hall hrest
          -- the child is resumed by now, those of the rest are suspended
          have hapart : entry.operationId
              ∉ (pending rest).map Entry.operationId := by
            intro hmem
            obtain ⟨other, hother, heq⟩ := List.mem_map.mp hmem
            obtain ⟨sibling, hsibling, hstill⟩ :=
              hdrivable.suspended other hother
            have hsame : Named t.journal entry sibling :=
              ⟨sibling.id, by rw [← heq, hsibling.text], hsibling.found⟩
            rw [hsame.unique hnamed', hresumed] at hstill
            cases hstill
          refine ⟨⟨?_, ?_⟩, ?_⟩
          · rw [pending_cons_of_ne rest hstatus, List.forall_mem_cons]
            refine ⟨⟨child, hnamed, hsuspended⟩, fun other hother => ?_⟩
            obtain ⟨sibling, hsibling, hstill⟩ :=
              hdrivable.suspended other hother
            refine ⟨sibling, hsibling.of_find ?_, hstill⟩
            refine (hbeside.journal sibling.id fun heq => hapart ?_).symm
            rw [heq, ← hsibling.text]
            exact List.mem_map_of_mem hother
          · rw [pending_cons_of_ne rest hstatus, List.map_cons,
              List.nodup_cons]
            exact ⟨hapart, hdrivable.apart⟩
          · rintro other (rfl | hother)
            · refine ⟨child', hnamed'.of_find ?_, hresumed⟩
              apply hjournal
              rw [← hnamed'.text]
              exact hapart
            · exact hothers other hother

-- ====== works

variable {S : η → Prop}

/-- Two children that can be resumed are about two domains. -/
theorem domainId_ne_of_workable (h : Workable env S domains child)
    (h' : Workable env S domains other) (hne : child.id ≠ other.id) :
    child.domainId.text ≠ other.domainId.text := by
  intro hdomain
  obtain ⟨domain, hrecorded, hcase⟩ := h.recorded
  obtain ⟨domain', hrecorded', hcase'⟩ := h'.recorded
  have hsame : domain = domain' := by
    have hfound := hrecorded.found
    rw [hdomain, hrecorded'.found] at hfound
    exact (Option.some.inj hfound).symm
  subst hsame
  apply hne
  apply Matching.ext_text
  simp only [Suspension.Committed, Domains.Domain.suspendedOn,
    Domains.Domain.resumedFrom, Suspension.Runtime.evidence,
    Bool.and_eq_true, beq_iff_eq] at hcase hcase'
  rcases hcase with ⟨⟨⟨⟨hstate, -⟩, -⟩, hid⟩, -⟩
    | ⟨⟨⟨⟨⟨⟨⟨hstate, -⟩, -⟩, -⟩, hid⟩, -⟩, -⟩, -⟩ <;>
    rcases hcase' with ⟨⟨⟨⟨hstate', -⟩, -⟩, hid'⟩, -⟩
      | ⟨⟨⟨⟨⟨⟨⟨hstate', -⟩, -⟩, -⟩, hid'⟩, -⟩, -⟩, -⟩
  · exact Option.some.inj (hid.symm.trans hid')
  · rw [hstate] at hstate'
    cases hstate'
  · rw [hstate] at hstate'
    cases hstate'
  · exact Option.some.inj (hid.symm.trans hid')

/-- A child can be resumed where its domain is as it was. -/
theorem workable_of_find {domains' : List Domains.Domain}
    (h : Workable env S domains child)
    (hsame : domains'.find? (fun d => d.id == child.domainId.text)
      = domains.find? fun d => d.id == child.domainId.text) :
    Workable env S domains' child := by
  obtain ⟨domain, hrecorded, hcase⟩ := h.recorded
  exact ⟨h.stampable, domain, { hrecorded with
    found := hsame.trans hrecorded.found }, hcase⟩

/-- What can be written of an entry is what an entry of a website says. -/
def Recordable (driven : List Driven) : Prop :=
  ∃ entries : List Entry, driven.map Driven.json = entries.map Entry.json

theorem recordable_cons {d : Driven} {rest : List Driven}
    (h : ∃ entry : Entry, d.json = entry.json) (hrest : Recordable rest) :
    Recordable (d :: rest) := by
  obtain ⟨entry, hentry⟩ := h
  obtain ⟨entries, hentries⟩ := hrest
  exact ⟨entry :: entries, by rw [List.map_cons, List.map_cons, hentry,
    hentries]⟩

theorem resumeChild_works (henv : Steady env)
    (hnamed : Named p.journal entry child)
    (hstatus : child.status = .suspended)
    (hwork : Workable env S p.domains child) (hS : S p.host) :
    Returns (resumeChild env entry) p fun driven t =>
      driven.status = .resumed ∧ (∃ entry : Entry, driven.json = entry.json)
        ∧ S t.host ∧ Aside child.id.text child.domainId.text p t := by
  have hinput : (resumeInput child).operationId = child.id.json := rfl
  have hspec : Meets (Suspension.Runtime.resume env (resumeInput child)) p
    _ _ := Suspension.resume_spec hinput hnamed.found
  have hrun : Returns (Suspension.Runtime.resume env (resumeInput child)) p
    _ := Suspension.resume_works henv hwork hS hnamed.found hstatus
  have hread : (Suspension.getOperation p.journal child.id.json).mapError
      Thrown.ofFailure = .ok (some child) := by
    rw [Suspension.getOperation_id, hnamed.found]
    rfl
  unfold resumeChild
  rw [hnamed.text]
  refine Returns.bind (R := fun found t => found = some child ∧ t = p)
    ⟨some child, hread, rfl, rfl⟩ ?_
  rintro _ t ⟨rfl, rfl⟩
  refine (hrun.and hspec).bind ?_
  rintro op u ⟨⟨hresumed, hSu⟩, -, haside, -⟩
  refine returns_pure ⟨hresumed, ?_, hSu, haside⟩
  exact ⟨⟨entry.domainId, some op.id, op.status, none⟩, rfl⟩

/-- Suspended children whose restore and commit work go through. -/
theorem retryEntries_works (henv : Steady env) (entries : List Entry)
    (p : Panel η) (hdrivable : Drivable p.journal entries)
    (hwork : ∀ entry ∈ pending entries, ∀ child,
      Named p.journal entry child → Workable env S p.domains child)
    (hS : S p.host) :
    Returns (retryEntries env entries) p fun out t =>
      out.2 = false ∧ Recordable out.1 := by
  induction entries generalizing p with
  | nil => exact returns_pure ⟨rfl, [], rfl⟩
  | cons entry rest ih =>
      by_cases hstatus : entry.status = .resumed
      · have hpending := pending_cons_of_resumed rest hstatus
        have hdrivable' : Drivable p.journal rest :=
          ⟨hpending ▸ hdrivable.suspended, hpending ▸ hdrivable.apart⟩
        rw [hpending] at hwork
        refine Returns.bind (R := fun out t => out = (.kept entry, false)
          ∧ t = p) ?_ ?_
        · unfold retryEntry
          rw [if_pos hstatus]
          exact returns_pure ⟨rfl, rfl⟩
        · rintro _ t ⟨rfl, rfl⟩
          refine (ih t hdrivable' hwork hS).bind ?_
          rintro ⟨others, hasFailure⟩ u ⟨hfalse, hrecordable⟩
          exact returns_pure ⟨hfalse, recordable_cons ⟨entry, rfl⟩
            hrecordable⟩
      · have hpending := pending_cons_of_ne rest hstatus
        have hsuspended := hdrivable.suspended
        have hapart := hdrivable.apart
        rw [hpending] at hwork hsuspended hapart
        rw [List.forall_mem_cons] at hwork hsuspended
        rw [List.map_cons, List.nodup_cons] at hapart
        obtain ⟨child, hnamed, hchild⟩ := hsuspended.1
        have hchildWork := hwork.1 child hnamed
        refine Returns.bind (R := fun out t => out.2 = false
          ∧ (∃ entry : Entry, out.1.json = entry.json) ∧ S t.host
          ∧ Aside child.id.text child.domainId.text p t) ?_ ?_
        · unfold retryEntry
          rw [if_neg hstatus]
          refine (resumeChild_works henv hnamed hchild hchildWork
            hS).caught.bind ?_
          rintro _ t ⟨driven, rfl, hresumed, hjson, hrest⟩
          exact returns_pure ⟨by simp [hresumed], hjson, hrest⟩
        · rintro ⟨driven, failed⟩ t ⟨hfalse, hjson, hSt, haside⟩
          -- the children of the rest are what they were
          have hsame : ∀ other ∈ pending rest, ∀ sibling,
              Named p.journal other sibling → sibling.id ≠ child.id := by
            intro other hother sibling hsibling heq
            apply hapart.1
            rw [hnamed.text, ← heq, ← hsibling.text]
            exact List.mem_map_of_mem hother
          have hstill : ∀ other ∈ pending rest, ∀ sibling,
              Named p.journal other sibling →
                Named t.journal other sibling := by
            intro other hother sibling hsibling
            refine hsibling.of_find (haside.journal _ fun heq => ?_)
            exact hsame other hother sibling hsibling
              (Matching.ext_text heq)
          have hdrivable' : Drivable t.journal rest := by
            refine ⟨fun other hother => ?_, hapart.2⟩
            obtain ⟨sibling, hsibling, hstatus⟩ := hsuspended.2 other hother
            exact ⟨sibling, hstill other hother sibling hsibling, hstatus⟩
          have hwork' : ∀ other ∈ pending rest, ∀ sibling,
              Named t.journal other sibling →
                Workable env S t.domains sibling := by
            intro other hother sibling hsibling
            obtain ⟨before, hbefore, -⟩ := hsuspended.2 other hother
            obtain rfl : sibling = before :=
              hsibling.unique (hstill other hother before hbefore)
            have hbeforeWork := hwork.2 other hother sibling hbefore
            refine workable_of_find hbeforeWork (haside.domains _ ?_)
            exact domainId_ne_of_workable hbeforeWork hchildWork
              (hsame other hother sibling hbefore)
          refine (ih t hdrivable' hwork' hSt).bind ?_
          rintro ⟨others, hasFailure⟩ u ⟨hfalse', hrecordable⟩
          refine returns_pure ⟨?_, recordable_cons hjson hrecordable⟩
          dsimp only at hfalse hfalse' ⊢
          rw [hfalse, hfalse']
          rfl

-- ====== the updates

theorem findOperation_setOperation
    (h : findOperation ops op.id.json = some op) (hid : next.id = op.id) :
    findOperation (setOperation ops next) op.id.json = some next := by
  have hmem := (findOperation_eq_some h).1
  have hhas : hasOperation ops next.id = true :=
    List.any_eq_true.mpr ⟨op, hmem, by simp [hid]⟩
  unfold setOperation
  rw [if_pos hhas]
  clear hhas
  induction ops with
  | nil => cases hmem
  | cons old rest ih =>
      unfold findOperation
      rw [List.map_cons]
      by_cases hold : old.id = next.id
      · rw [if_pos (by simpa using hold),
          List.find?_cons_of_pos (by simp [hid])]
      · have hne : ¬(op.id.json == old.id.json) = true := by
          intro heq
          apply hold
          rw [hid]
          exact (Matching.ext_text (Json.str.inj (beq_iff_eq.mp heq))).symm
        have hpass (others : List Operation) :
            (old :: others).find? (fun o => op.id.json == o.id.json)
              = others.find? fun o => op.id.json == o.id.json :=
          List.find?_cons_of_neg hne
        rw [if_neg (by simpa using hold), hpass]
        unfold findOperation at h
        rw [hpass] at h
        exact ih h (List.mem_of_find?_eq_some h)

theorem update_spec (id : Json) (changes : Changes) (p : Panel η) :
    Meets (update env id changes) p
      (fun next t => (∃ now, updateOperation now id changes p.websites
          = .ok next)
        ∧ t.websites = setOperation p.websites next
        ∧ t.journal = p.journal ∧ t.domains = p.domains ∧ t.host = p.host)
      (fun _ _ => True) := by
  refine (Suspension.dateNow_spec p _).bind ?_
  rintro now t ⟨rfl, rfl⟩
  refine meets_read_bind (Meets.bind (R := fun next u =>
    updateOperation ⟨(env.now p.turn).val⟩ id changes p.websites = .ok next
      ∧ u = p.nextTurn) ?_ ?_)
  · refine meets_ofExcept (fun next hnext => ⟨?_, rfl⟩) (fun _ _ => trivial)
    cases hout : updateOperation ⟨(env.now p.turn).val⟩ id changes
        p.websites with
    | ok updated =>
        change (updateOperation ⟨(env.now p.turn).val⟩ id changes
          p.websites).mapError _ = _ at hnext
        rw [hout] at hnext
        have heq : (Except.ok updated : Except Thrown Operation) = .ok next :=
          hnext
        rw [Except.ok.inj heq]
    | error e =>
        change (updateOperation ⟨(env.now p.turn).val⟩ id changes
          p.websites).mapError _ = _ at hnext
        rw [hout] at hnext
        cases hnext
  · rintro next u ⟨hupdated, rfl⟩
    refine meets_modify_bind (Meets.bind (R := fun _ v =>
      v.websites = setOperation p.websites next ∧ v.journal = p.journal
        ∧ v.domains = p.domains ∧ v.host = p.host) ?_ ?_)
    · refine meets_read_bind (meets_modify_bind ?_)
      cases env.saved _ with
      | none => exact meets_pure ⟨rfl, rfl, rfl, rfl⟩
      | some e => exact meets_fail trivial
    · rintro _ v hv
      exact meets_pure ⟨⟨_, hupdated⟩, hv⟩

theorem update_works (henv : Steady env)
    (h : ∀ now, ∃ next, updateOperation now id changes p.websites
      = .ok next) :
    Returns (update env id changes) p fun next t =>
      (∃ now, updateOperation now id changes p.websites = .ok next)
        ∧ t.websites = setOperation p.websites next
        ∧ t.journal = p.journal ∧ t.domains = p.domains
        ∧ t.host = p.host := by
  have hreturns : Returns (update env id changes) p fun _ _ => True := by
    obtain ⟨next, hnext⟩ := h ⟨(env.now p.turn).val⟩
    refine Returns.bind (R := fun now t => now = ⟨(env.now p.turn).val⟩
      ∧ t = p.nextTurn) ⟨_, rfl, rfl, rfl⟩ ?_
    rintro now t ⟨rfl, rfl⟩
    refine returns_read_bind (Returns.bind (R := fun _ _ => True)
      ⟨next, ?_, trivial⟩ ?_)
    · show (updateOperation ⟨(env.now p.turn).val⟩ id changes
        p.websites).mapError _ = _
      rw [hnext]
      rfl
    · rintro updated u -
      refine returns_modify_bind (Returns.bind (R := fun _ _ => True) ?_
        fun _ _ _ => returns_pure trivial)
      refine returns_read_bind (returns_modify_bind ?_)
      rw [show env.saved _ = none from henv.saved _]
      exact returns_pure trivial
  exact (hreturns.and (update_spec id changes p)).mono fun _ _ hr => hr.2

/-- The changes of the status alone. -/
theorem updateOperation_status (h : findOperation ops op.id.json = some op)
    (status : Status) (now : Instant) :
    updateOperation now op.id.json
        ⟨[("status", .str status.text)], none⟩ ops
      = .ok { op with status, updatedAt := now } := by
  unfold updateOperation
  rw [h]
  exact validateOperation_draft { op with status, updatedAt := now }

/-- The outcome of a loop without a failure is accepted. -/
theorem updateOperation_outcome (h : findOperation ops op.id.json = some op)
    {driven : List Driven} (hrecordable : Recordable driven)
    (at_ now : Instant) :
    ∃ next, updateOperation now op.id.json (outcome driven false at_) ops
        = .ok next ∧ next.status = .resumed := by
  obtain ⟨entries, hentries⟩ := hrecordable
  refine ⟨{ op with
    status := .resumed
    domainOperations := entries
    error := none
    updatedAt := now
    completedAt := some at_ }, ?_, rfl⟩
  unfold updateOperation
  rw [h]
  have hdraft : op.changed (outcome driven false at_) now
      = Operation.draft { op with
          status := .resumed
          domainOperations := entries
          error := none
          updatedAt := now
          completedAt := some at_ } := by
    unfold Operation.draft
    rw [← hentries]
    rfl
  show validateOperation _ = _
  rw [hdraft]
  exact validateOperation_draft _

/-- What an update leaves has the status that was sent. -/
theorem status_of_updateOperation {now : Instant} (status : Status)
    (hsent : changes.fields.lookup "status" = some (.str status.text))
    (h : updateOperation now id changes ops = .ok next) :
    next.status = status := by
  unfold updateOperation at h
  obtain ⟨current, -, hvalid⟩ := bind_eq_ok.mp h
  have hstatus : (current.changed changes now).status = .str status.text := by
    show (changes.fields.lookup "status").getD _ = _
    rw [hsent]
    rfl
  unfold validateOperation at hvalid
  simp only [bind_eq_ok, demand_eq_ok, pure_eq, Except.ok.injEq,
    hstatus, status_read, Option.some.injEq] at hvalid
  obtain ⟨-, -, -, -, -, -, -, -, -, -, -, -, s, hs, -, -, -, -, -, -, -, -,
    -, -, rfl⟩ := hvalid
  exact hs.symm

-- ====== the retry

/-- The retry is asked for what stands: the operation is of this server and
website, its resumption was begun, and the confirmation is current. -/
structure Current (env : Surroundings η) (input : RetryInput)
    (op : Operation) : Prop where
  website : op.websiteId.text = input.websiteId
  server : op.serverId.text = env.localServerId
  status : op.status ∈ [.resuming, .resumePartly, .resumeFailed]
  updatedAt : input.expectedUpdatedAt = op.updatedAt.toISOString
  confirmation : input.confirmation = resumeRetryConfirmation op

theorem retryable_of_current {input : RetryInput} (h : Current env input op) :
    retryable env input (some op) = .ok op := by
  unfold retryable
  dsimp only
  rw [if_neg (by simp [h.website, h.server]),
    if_neg (fun hnot => hnot h.status),
    if_neg (by simp [h.updatedAt, h.confirmation])]

/-- The website is resumed, and every child that was still to be resumed
is. -/
def Resumed (op next : Operation) (t : Panel η) : Prop :=
  next.status = .resumed ∧ ∀ entry ∈ pending op.domainOperations, ∃ child,
    Named t.journal entry child ∧ child.status = .resumed

/-- Where every child can be resumed, a retry with the current confirmation
resumes the website exactly if every child still to be resumed is
suspended, and named once. -/
theorem retryResume_resumes_iff {p : Panel η} {input : RetryInput}
    {op : Operation} (henv : Steady env)
    (hop : findOperation p.websites input.operationId = some op)
    (hcurrent : Current env input op) (hS : S p.host)
    (hwork : ∀ entry ∈ pending op.domainOperations, ∃ child,
      Named p.journal entry child ∧ Workable env S p.domains child) :
    Returns (retryResume env input) p (Resumed op)
      ↔ Drivable p.journal op.domainOperations := by
  have hinput : input.operationId = op.id.json :=
    (findOperation_eq_some hop).2
  have hself := hop
  rw [hinput] at hself
  constructor
  · intro hreturns
    have hreturns : Returns (ofExcept (retryable env input
        (findOperation p.websites input.operationId)) >>= _) p _ := hreturns
    rw [hop, retryable_of_current hcurrent] at hreturns
    obtain ⟨_, -, hrest, -, -, hjournal, -⟩ :=
      (Returns.of_bind (show Returns (update env op.id.json _ >>= _) p _
        from hreturns)).and (update_spec _ _ p)
    obtain ⟨⟨driven, hasFailure⟩, -, hlast, hspec⟩ :=
      hrest.of_bind.and (retryEntries_spec _ _)
    obtain ⟨_, -, hupdate⟩ := hlast.of_bind
    obtain ⟨next, -, ⟨hstatus, -⟩, ⟨now, hnow⟩, -⟩ :=
      hupdate.and (update_spec _ _ _)
    have hfinal := status_of_updateOperation
      (finalStatus driven hasFailure) rfl hnow
    have hfalse : hasFailure = false := by
      by_contra hne
      rw [hfinal, finalStatus, if_pos (by simpa using hne)] at hstatus
      split at hstatus <;> cases hstatus
    rw [← hjournal]
    exact (hspec.2.2 hfalse).1
  · intro hdrivable
    show Returns (ofExcept (retryable env input
      (findOperation p.websites input.operationId)) >>= _) p _
    rw [hop, retryable_of_current hcurrent]
    show Returns (update env op.id.json _ >>= _) p _
    refine (update_works henv fun now =>
      ⟨_, updateOperation_status hself .resuming now⟩).bind ?_
    rintro begun t ⟨⟨now, hbegun⟩, hwebsites, hjournal, hdomains, hhost⟩
    rw [updateOperation_status hself .resuming now] at hbegun
    have hid : begun.id = op.id := by rw [← Except.ok.inj hbegun]
    have hmine : findOperation t.websites begun.id.json = some begun := by
      rw [hwebsites, hid]
      exact findOperation_setOperation hself hid
    rw [← hjournal] at hdrivable hwork
    rw [← hdomains] at hwork
    rw [← hhost] at hS
    have hworks : ∀ entry ∈ pending op.domainOperations, ∀ child,
        Named t.journal entry child → Workable env S t.domains child := by
      intro entry hentry child hnamed
      obtain ⟨other, hother, hworkable⟩ := hwork entry hentry
      rw [hnamed.unique hother]
      exact hworkable
    refine ((retryEntries_works henv _ t hdrivable hworks hS).and
      (retryEntries_spec _ t)).bind ?_
    rintro ⟨driven, hasFailure⟩ u ⟨⟨hfalse, hrecordable⟩, hkept, -, hall⟩
    obtain ⟨-, hresumed⟩ := hall hfalse
    obtain rfl : hasFailure = false := hfalse
    refine Returns.bind (R := fun _ v => v = u.nextTurn)
      ⟨_, rfl, rfl⟩ ?_
    rintro at_ _ rfl
    rw [← hkept] at hmine
    refine (update_works henv fun now => ?_).mono ?_
    · obtain ⟨next, hnext, -⟩ :=
        updateOperation_outcome hmine hrecordable at_ now
      rw [hid] at hnext
      exact ⟨next, hnext⟩
    · rintro next v ⟨⟨now', hnext⟩, -, hjournal', -⟩
      refine ⟨status_of_updateOperation .resumed rfl hnext, ?_⟩
      rw [hjournal']
      exact hresumed

section Samples

/-- A host that knows which names are taken out of service. -/
def plainNginx : Suspension.Nginx (List String) where
  inspectDomainDeactivation name checksum := fun out =>
    (.ok (.obj [("checksum", .str checksum),
      ("satisfied", .bool (out.contains name)),
      ("deactivationCandidate", .bool (!out.contains name))]), out)
  deactivateDomain name _ := fun out =>
    (.ok (.obj [("changed", .bool true)]), name :: out)
  inspectDomainDeactivationRollback name checksum := fun out =>
    (.ok (.obj [("checksum", .str checksum),
      ("satisfied", .bool (!out.contains name)),
      ("reason", if out.contains name
        then .str Suspension.Runtime.rollbackPending else .null)]), out)
  rollbackDomainDeactivation name _ := fun out =>
    (.ok (.obj [("changed", .bool true)]), out.filter fun n => n != name)

def plainEnv : Surroundings (List String) where
  localServerId := "server-1"
  net := Domains.asciiPlatform.toNet
  nginx := plainNginx
  now n := if h : n ≤ 8640000000 then ⟨n, by omega⟩ else ⟨0, by omega⟩
  saved _ := none

theorem plainEnv_steady : Steady plainEnv where
  saved _ := rfl
  now n := by
    unfold Suspension.lastInstant plainEnv
    dsimp only
    split <;> dsimp only <;> omega

theorem plainNginx_restorable (primaryDomain checksum : String) :
    Suspension.Restorable plainEnv (fun _ => True) primaryDomain checksum := by
  have hanswers : ∀ (P : Suspension.Service.HostState → Prop)
      (out : List String), P
        { satisfied := !out.contains primaryDomain
          deactivationCandidate := false
          reason := (if out.contains primaryDomain
            then Json.str Suspension.Runtime.rollbackPending
            else .null).str?
          checksum } →
      Suspension.Answers (fun _ => True) checksum P
        (plainNginx.inspectDomainDeactivationRollback primaryDomain checksum)
        out := by
    intro P out hP
    refine ⟨_, rfl, trivial, _, ?_, hP⟩
    simp [Suspension.Service.normalizeHostResumeInspection, object?]
  refine ⟨fun out _ => hanswers _ out ?_, fun out _ =>
    ⟨_, rfl, trivial, hanswers _ _ ?_⟩⟩
  · by_cases hout : out.contains primaryDomain = true
    · right
      rw [if_pos hout]
      rfl
    · left
      simpa using hout
  · simp [plainEnv, plainNginx]

def plainChecksum : Sha256 :=
  ⟨"aaaaaaaaaaaaaaaaaaaaaaaaaaaaaaaaaaaaaaaaaaaaaaaaaaaaaaaaaaaaaaaa",
    Eq.refl true⟩

/-- A domain that `operation-1` suspended. -/
def plainDomain : Domains.Domain where
  id := "domain-1"
  serverId := "server-1"
  websiteId := some "website-1"
  primaryDomain := "example.com"
  parentDomainId := none
  aliases := []
  targetType := .static
  target := .static "/srv/www" false
  nginxSettings := .served none false none []
  httpsMode := .off
  httpsRedirect := false
  canonicalRedirect := false
  certificateId := none
  appliedPrimaryDomain := some "example.com"
  state := .suspended
  desiredRevision := 4
  stagedRevision := 4
  stagedChecksum := some plainChecksum.text
  stagedConfigName := some "example.com.conf"
  lastStagedAt := some ⟨0⟩
  appliedRevision := 4
  lastAppliedAt := some ⟨0⟩
  lastError := none
  suspensionOperationId := some "operation-1"
  suspendedAt := some ⟨1⟩
  suspendedChecksum := some plainChecksum.text
  lastSuspensionOperationId := none
  lastResumedAt := none
  createdAt := ⟨0⟩
  updatedAt := ⟨1⟩

/-- Its operation, not resumed yet. -/
def suspendedChild : Suspension.Operation where
  id := ⟨"operation-1", Eq.refl true⟩
  domainId := ⟨"domain-1", Eq.refl true⟩
  serverId := ⟨"server-1", Eq.refl true⟩
  primaryDomain := ⟨"example.com", Eq.refl true⟩
  domainRevision := ⟨4, Ranged.four_ok⟩
  checksum := plainChecksum
  previewDigest := plainChecksum
  confirmation := ⟨"suspend-domain", Eq.refl true⟩
  status := .suspended
  suspendResult := some ⟨true, ⟨1⟩⟩
  suspendError := none
  resumeResult := none
  resumeError := none
  createdAt := ⟨0⟩
  updatedAt := ⟨1⟩
  coherent := rfl

/-- The same after a resumption that failed. -/
def failedChild : Suspension.Operation :=
  { suspendedChild with
    status := .resumeFailed
    resumeError := some ⟨⟨"nginx_reload_failed", by decide⟩,
      ⟨"reload failed", by decide⟩⟩
    coherent := rfl }

/-- A website whose resumption failed for its one domain. -/
def failedWebsite : Operation where
  id := ⟨"operation-9", Eq.refl true⟩
  websiteId := ⟨"website-1", Eq.refl true⟩
  serverId := ⟨"server-1", Eq.refl true⟩
  websiteRevision := ⟨1, Ranged.one_ok⟩
  previewDigest := plainChecksum
  confirmation := ⟨"start-website-suspend", Eq.refl true⟩
  status := .resumeFailed
  domainOperations := [⟨⟨"domain-1", Eq.refl true⟩,
    some ⟨"operation-1", Eq.refl true⟩, .resumeFailed, none⟩]
  error := none
  createdAt := ⟨0⟩
  updatedAt := ⟨2⟩
  completedAt := none

def plainPanel (child : Suspension.Operation) : Panel (List String) where
  websites := [failedWebsite]
  journal := [child]
  domains := [plainDomain]
  host := ["example.com"]
  turn := 3

def plainRetry : RetryInput where
  websiteId := "website-1"
  operationId := .str "operation-9"
  expectedUpdatedAt := failedWebsite.updatedAt.toISOString
  confirmation := resumeRetryConfirmation failedWebsite

theorem plainRetry_current : Current plainEnv plainRetry failedWebsite where
  website := rfl
  server := rfl
  status := by decide
  updatedAt := rfl
  confirmation := rfl

theorem plainDomain_checked :
    Domains.hydrateDomain plainEnv.net 4 plainDomain = .ok plainDomain := by
  decide +kernel

/-- Restore and commit work for the child, whatever its status. -/
theorem plainPanel_workable (hdomain : child.domainId.text = "domain-1")
    (hname : child.primaryDomain.text = "example.com")
    (hevidence : Suspension.Runtime.evidence child
      = Suspension.Runtime.evidence suspendedChild)
    (hstamp : child.updatedAt = ⟨1⟩) :
    Workable plainEnv (fun _ => True) [plainDomain] child where
  stampable := by
    rw [hstamp]
    decide
  recorded := by
    refine ⟨plainDomain, ⟨?_, plainDomain_checked, rfl, by decide +kernel,
      hname.symm⟩, .inl ⟨?_, plainNginx_restorable _ _⟩⟩
    · rw [hdomain]
      rfl
    · rw [hevidence]
      decide +kernel

theorem plainRetry_named (child : Suspension.Operation)
    (hid : child.id = suspendedChild.id) :
    ∀ entry ∈ pending failedWebsite.domainOperations,
      Named (plainPanel child).journal entry child := by
  intro entry hentry
  have hmem : entry ∈ failedWebsite.domainOperations :=
    (List.mem_filter.mp hentry).1
  obtain rfl := List.mem_singleton.mp hmem
  refine ⟨suspendedChild.id, rfl, ?_⟩
  unfold Suspension.findOperation
  exact List.find?_cons_of_pos (by simp [hid])

/-- A child that is still suspended is resumed by the retry, and with it
the website. -/
theorem retryResume_resumes_suspended :
    Returns (retryResume plainEnv plainRetry) (plainPanel suspendedChild)
      (Resumed failedWebsite) :=
  (retryResume_resumes_iff (S := fun _ => True) plainEnv_steady
    (by decide +kernel) plainRetry_current trivial
    fun entry hentry => ⟨suspendedChild, plainRetry_named suspendedChild rfl
      entry hentry, plainPanel_workable rfl rfl rfl rfl⟩).mpr
    ⟨fun entry hentry => ⟨suspendedChild, plainRetry_named suspendedChild
      rfl entry hentry, rfl⟩, by decide⟩

/-- A child whose resumption failed could be resumed by now, but the retry
leaves it as it is and the website fails again. -/
theorem failed_child_stays :
    Steady plainEnv ∧ Current plainEnv plainRetry failedWebsite
      ∧ (∀ entry ∈ pending failedWebsite.domainOperations, ∃ child,
        Named (plainPanel failedChild).journal entry child
          ∧ Workable plainEnv (fun _ => True)
            (plainPanel failedChild).domains child)
      ∧ ¬Returns (retryResume plainEnv plainRetry) (plainPanel failedChild)
        (Resumed failedWebsite) := by
  refine ⟨plainEnv_steady, plainRetry_current, fun entry hentry =>
    ⟨failedChild, plainRetry_named failedChild rfl entry hentry,
      plainPanel_workable rfl rfl rfl rfl⟩, ?_⟩
  rintro ⟨next, hnext, hstatus, -⟩
  have hrun : (retryResume plainEnv plainRetry (plainPanel failedChild)).1.map
      (fun op => op.status) = .ok .resumeFailed := by
    decide +kernel
  rw [hnext] at hrun
  have hfailed : next.status = .resumeFailed := Except.ok.inj hrun
  rw [hstatus] at hfailed
  cases hfailed

end Samples

end Yunpanel.WebsiteSuspension
