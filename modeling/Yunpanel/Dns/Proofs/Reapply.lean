/-
What reapplying a template does to a zone, against what its preview says.

The preview, the zone expected afterwards, the changes of the zone manager
and its inspection are four passes over the same RRsets. What the patch
leaves of a key is `outcome`, what is expected of it `expected`; the other
two passes agree with `outcome` wherever a preview may be applied
(`Cleared`). `outcome` and `expected` differ where an RRset that is left
alone has other comments than the panel writes, or where the comments of an
RRset that goes are read in another order once they are sorted (`Plain`).
-/
import Yunpanel.Dns.Proofs.Zone
import Yunpanel.Dns.Reapply

namespace Yunpanel.Dns.Reapply

open Lib Lib.Keyed Lib.Result

variable {h : Host} {request : Request} {today : Day} {hosted : Hosted}
  {preview : Preview}

-- ====== statements

/-- The zone a request is about, as it is read. -/
def observed (request : Request) (hosted : Hosted) : Zone :=
  readZone request.intent.zoneName.text hosted

/-- `ensurePrimaryZone`: the zone before its RRsets are changed. -/
def ensured (preview : Preview) (hosted : Hosted) : Hosted :=
  { hosted with
    kind := if preview.primaryKindChangeRequired then some "Primary"
      else hosted.kind }

/-- The key of the RRset a listed change is about. -/
def listedKey (listed : Listed) : String :=
  keyText (listed.rrset.owner ++ ".") listed.rrset.type

/-- How what is said of a key has changed. -/
def Differs : Action → Option Rrset → Option Rrset → Prop
  | .add, before, after => before = none ∧ after ≠ none
  | .replace, before, after => before ≠ none ∧ after ≠ none ∧ before ≠ after
  | .delete, before, after => before ≠ none ∧ after = none

/-- What a zone is after a preview is applied, against the preview. -/
structure Agreed (h : Host) (request : Request) (hosted : Hosted)
    (preview : Preview) (desired : List Rrset) (after : Hosted) : Prop where
  snapshot : zoneSnapshot h (observed request after).toZoneState
    = expectedAppliedZoneSnapshot h (observed request hosted).toZoneState
        preview request.reconcileMail
  digest : (zoneSnapshot h (observed request after).toZoneState).map (digest h)
    = (expectedAppliedZoneSnapshot h (observed request hosted).toZoneState
        preview request.reconcileMail).map (Reapply.digest h)
  inspected : ∃ kind serial notified dnssec managed manual,
    inspectAgainstDesired h (some (observed request after)) desired
        (!request.secondaryDns.isEmpty)
      = .satisfied kind serial notified dnssec managed manual
  untouched : ∀ rrset ∈ (observed request hosted).rrsets,
    (∀ there, managed h rrset = some there →
      there.source ∉ reconciledSources request.reconcileMail) →
    rrset ∈ (observed request after).rrsets
  listed : ∀ k action,
    (∃ listed ∈ preview.changes, listed.action = action ∧ listedKey listed = k)
      ↔ Differs action (get rrsetKey (observed request hosted).rrsets k)
          (get rrsetKey (observed request after).rrsets k)
  once : (preview.changes.map listedKey).Nodup
  stable : changesFor h (observed request after) desired = .ok []

/-- The changes for the records of a preview are computed, and the zone they
leave is the one that was announced. -/
def Agrees (h : Host) (request : Request) (hosted : Hosted)
    (preview : Preview) : Prop :=
  ∃ desired changes, desiredMap h preview.records = .ok desired
    ∧ changesFor h (observed request (ensured preview hosted)) desired
      = .ok changes
    ∧ ∀ after, Patched (ensured preview hosted) changes after →
      Agreed h request hosted preview desired after

/-- The managed RRsets of a zone show what they are: one that has what is
wanted has the records and comments the panel writes, up to their order, and
one that is not wanted is still of a reconciled source when its comments are
sorted. -/
def Plain (h : Host) (request : Request) (hosted : Hosted)
    (preview : Preview) : Prop :=
  ∀ desired, desiredMap h preview.records = .ok desired →
    ∀ rrset ∈ (observed request hosted).rrsets,
      match get rrsetKey desired (rrsetKey rrset) with
      | some wanted => settled h wanted rrset = true →
          snapshotRrset h rrset = snapshotRrset h wanted
      | none => ∀ there, managed h rrset = some there →
          ∃ there, managed h (snapshotRrset h rrset) = some there
            ∧ there.source ∈ reconciledSources request.reconcileMail

-- ====== records

variable {record : Record} {records : List Record}

variable {p : Platform} {intent : Intent} {serial : Nat} {existing : Zone}

theorem record_eq_ok {asked : RecordRequest} {source : Source}
    {templateVersion : Option Int} {defaultTtl : Nat}
    (hrecord : DesiredState.record p asked source templateVersion defaultTtl
      = .ok record) :
    record.key = asked.key ∧ record.owner = asked.owner.text
      ∧ record.source = source ∧ record.type = asked.type
      ∧ asked.values.mapM (DesiredState.recordValue p asked.type)
        = .ok record.values := by
  unfold DesiredState.record at hrecord
  obtain ⟨-, hrecord⟩ := guard_eq_ok.mp hrecord
  obtain ⟨ttl, -, hrecord⟩ := bind_eq_ok.mp hrecord
  obtain ⟨values, hvalues, hrecord⟩ := bind_eq_ok.mp hrecord
  obtain rfl := Except.ok.inj hrecord
  exact ⟨rfl, rfl, rfl, rfl, hvalues⟩

theorem owned_of_owner {owner : Owner} (howner : record.owner = owner.text) :
    Owned record := by
  constructor
  · rw [howner]
    exact owner.allowed
  · rw [howner]
    exact owner.relative

/-- What a rendered zone is put together from. -/
theorem render_eq_ok
    (hrender : DesiredState.render p intent serial = .ok records) :
    1 ≤ serial ∧ serial ≤ 4294967295
      ∧ ∃ soa template mail, DesiredState.soaRecord p intent serial = .ok soa
        ∧ intent.templateRecords.mapM (fun request =>
            DesiredState.record p request .template
              (some intent.templateVersion) intent.soa.ttl) = .ok template
        ∧ intent.mailRecords.mapM (fun request =>
            DesiredState.record p request .mail none intent.soa.ttl) = .ok mail
        ∧ records = soa :: template ++ mail := by
  unfold DesiredState.render at hrender
  obtain ⟨hserial, hrender⟩ := guard_eq_ok.mp hrender
  obtain ⟨soa, hsoa, hrender⟩ := bind_eq_ok.mp hrender
  obtain ⟨template, htemplate, hrender⟩ := bind_eq_ok.mp hrender
  obtain ⟨mail, hmail, hrender⟩ := bind_eq_ok.mp hrender
  simp only [Bool.or_eq_true, decide_eq_true_eq, not_or, not_lt] at hserial
  refine ⟨hserial.1, hserial.2, soa, template, mail, hsoa, htemplate, hmail, ?_⟩
  unfold DesiredState.validateRecordSet at hrender
  split at hrender
  · cases hrender
  · split at hrender
    · cases hrender
    · exact (Except.ok.inj hrender).symm

/-- Every record rendered has a normal owner, and is of the template or
asked for by the mail state. -/
theorem owned_of_desiredState
    (hrender : DesiredState.render p intent serial = .ok records) :
    ∀ record ∈ records, Owned record
      ∧ (record.source = .template
        ∨ (record.source = .mail ∧ intent.mailRecords ≠ [])) := by
  obtain ⟨-, -, soa, template, mail, hsoa, htemplate, hmail, rfl⟩ :=
    render_eq_ok hrender
  intro record hrecord
  rcases List.mem_append.mp hrecord with hrecord | hrecord
  · rcases List.mem_cons.mp hrecord with rfl | hrecord
    · obtain ⟨-, howner, hsource, -, -⟩ := record_eq_ok hsoa
      exact ⟨owned_of_owner howner, .inl hsource⟩
    · obtain ⟨asked, -, hasked⟩ :=
        exists_of_forall₂ (mapM_eq_ok_iff.mp htemplate) hrecord
      obtain ⟨-, howner, hsource, -, -⟩ := record_eq_ok hasked
      exact ⟨owned_of_owner howner, .inl hsource⟩
  · obtain ⟨asked, hmem, hasked⟩ :=
      exists_of_forall₂ (mapM_eq_ok_iff.mp hmail) hrecord
    obtain ⟨-, howner, hsource, -, -⟩ := record_eq_ok hasked
    exact ⟨owned_of_owner howner, .inr ⟨hsource, List.ne_nil_of_mem hmem⟩⟩

/-- A record that is rendered for a domain is one of the zone. -/
theorem mem_of_recordsForDomain {aliases : List String} {zoneName : String}
    (hrecord : record ∈ recordsForDomain aliases zoneName records) :
    record ∈ records := by
  rcases List.mem_append.mp hrecord with hrecord | hrecord
  · exact (List.mem_filter.mp hrecord).1
  · split at hrecord
    · exact List.mem_of_find?_eq_some (Option.mem_toList.mp hrecord)
    · cases hrecord

/-- Every record rendered has a normal owner and a reconciled source. -/
theorem owned_of_render (hrender : render h request serial = .ok records) :
    ∀ record ∈ records, Owned record
      ∧ record.source.text ∈ reconciledSources request.reconcileMail := by
  obtain ⟨all, hall, hrecords⟩ := bind_eq_ok.mp hrender
  obtain rfl := Except.ok.inj hrecords
  intro record hrecord
  obtain ⟨howned, hsource⟩ :=
    owned_of_desiredState hall record (mem_of_recordsForDomain hrecord)
  refine ⟨howned, ?_⟩
  rcases hsource with hsource | ⟨hsource, hmail⟩
  · have htemplate : ∀ mail, "template" ∈ reconciledSources mail := by decide
    rw [hsource]
    exact htemplate _
  · rw [hsource]
    cases hreconcile : request.reconcileMail with
    | true => decide
    | false => exact absurd (request.unresolved hreconcile) hmail

-- ====== preview

/-- What a preview that may be applied says of a zone. -/
structure Cleared (h : Host) (request : Request) (hosted : Hosted)
    (preview : Preview) (desired : List Rrset) : Prop where
  wanted : ∀ rrset ∈ desired, ∃ record, Wanted h record rrset
    ∧ record.source.text ∈ reconciledSources request.reconcileMail
  nodup : (desired.map rrsetKey).Nodup
  changes : preview.changes = (desired.map (verdict h (observed request hosted))
    ++ ((observed request hosted).rrsets.filter fun rrset =>
      (get rrsetKey desired (rrsetKey rrset)).isNone).map
        (leftover h (reconciledSources request.reconcileMail))).filterMap
          Verdict.change?
  unopposed : ∀ rrset ∈ desired,
    (verdict h (observed request hosted) rrset).conflict? = none
      ∧ (verdict h (observed request hosted) rrset).blocker? = none
  reconciled : ∀ rrset ∈ (observed request hosted).rrsets,
    get rrsetKey desired (rrsetKey rrset) = none →
    (leftover h (reconciledSources request.reconcileMail) rrset).blocker? = none
  topology : preview.primaryKindChangeRequired
      = (topologyState (observed request hosted)
          request.secondaryDns).primaryKindChangeRequired
    ∧ (topologyState (observed request hosted) request.secondaryDns).blocker
      = none

theorem desiredRrsetMap_eq_ok {desired : List Rrset} :
    desiredRrsetMap h records = .ok desired ↔
      List.Forall₂ (fun record rrset => desiredRrset h record = .ok rrset)
          records desired
        ∧ (desired.map rrsetKey).Nodup := by
  unfold desiredRrsetMap
  rw [desiredMapFrom_eq_ok (show (([] : List Rrset).map rrsetKey).Nodup
    from List.nodup_nil)]
  constructor
  · rintro ⟨wanted, hall, rfl, hnodup⟩
    exact ⟨hall, hnodup⟩
  · rintro ⟨hall, hnodup⟩
    exact ⟨desired, hall, rfl, hnodup⟩

/-- The zone manager wants the same RRsets. -/
theorem desiredMap_eq_ok {desired : List Rrset} :
    desiredMap h records = .ok desired
      ↔ desiredRrsetMap h records = .ok desired := by
  rw [desiredRrsetMap_eq_ok]
  unfold desiredMap
  rw [desiredMapFrom_eq_ok (show (([] : List Rrset).map rrsetKey).Nodup
    from List.nodup_nil)]
  constructor
  · rintro ⟨wanted, hall, rfl, hnodup⟩
    exact ⟨hall, hnodup⟩
  · rintro ⟨hall, hnodup⟩
    exact ⟨desired, hall, rfl, hnodup⟩

/-- The serial that comes next is a later one. -/
theorem lt_of_nextSerial {current next : Nat}
    (hnext : nextSerial current today = .ok next) : current < next := by
  unfold nextSerial at hnext
  obtain ⟨-, hnext⟩ := guard_eq_ok.mp hnext
  obtain ⟨floor, -, hnext⟩ := bind_eq_ok.mp hnext
  dsimp only at hnext
  obtain ⟨-, hnext⟩ := guard_eq_ok.mp hnext
  have hvalue := Except.ok.inj hnext
  by_cases hfloor : current < floor
  · rw [if_pos hfloor] at hvalue
    omega
  · rw [if_neg hfloor] at hvalue
    omega

/-- What a preview is made of. -/
theorem buildPreview_eq_ok
    (hpreview : buildPreview h request today (some existing) = .ok preview) :
    ∃ observed serial diff, existing.serial = some observed
      ∧ render h request serial = .ok preview.records
      ∧ diffZone h existing preview.records
          (reconciledSources request.reconcileMail) = .ok diff
      ∧ preview.changes = diff.changes ∧ preview.conflicts = diff.conflicts
      ∧ preview.blockers = diff.blockers
          ++ (topologyState existing request.secondaryDns).blocker.toList
      ∧ preview.primaryKindChangeRequired
        = (topologyState existing
            request.secondaryDns).primaryKindChangeRequired
      ∧ (preview.applyAllowed = true →
          preview.conflicts = [] ∧ preview.blockers = []
          ∧ observed < serial) := by
  unfold buildPreview at hpreview
  dsimp only at hpreview
  cases hserial : existing.serial with
  | none =>
      rw [hserial] at hpreview
      cases hpreview
  | some observed =>
      rw [hserial] at hpreview
      dsimp only at hpreview
      obtain ⟨observedRecords, hobserved, hpreview⟩ := bind_eq_ok.mp hpreview
      obtain ⟨initial, hinitial, hpreview⟩ := bind_eq_ok.mp hpreview
      obtain ⟨serial, hnext, hpreview⟩ := bind_eq_ok.mp hpreview
      obtain ⟨records, hrecords, hpreview⟩ := bind_eq_ok.mp hpreview
      obtain ⟨diff, hdiff, hpreview⟩ := bind_eq_ok.mp hpreview
      have hboth : render h request serial = .ok records
          ∧ diffZone h existing records
              (reconciledSources request.reconcileMail) = .ok diff := by
        by_cases hsame : serial = observed
        · rw [if_pos hsame] at hrecords hdiff
          rw [← Except.ok.inj hrecords, ← Except.ok.inj hdiff, hsame]
          exact ⟨hobserved, hinitial⟩
        · rw [if_neg hsame] at hrecords hdiff
          exact ⟨hrecords, hdiff⟩
      obtain rfl := Except.ok.inj hpreview
      refine ⟨observed, serial, diff, rfl, hboth.1, hboth.2, rfl, rfl, rfl, rfl, ?_⟩
      intro hallowed
      simp only [Bool.and_eq_true, List.isEmpty_iff] at hallowed
      refine ⟨hallowed.1.2, hallowed.2, ?_⟩
      rw [if_pos hallowed.1.1] at hnext
      exact lt_of_nextSerial hnext

theorem cleared_of_buildPreview
    (hpreview : buildPreview h request today (some (observed request hosted))
      = .ok preview) (hallowed : preview.applyAllowed = true) :
    ∃ desired, desiredRrsetMap h preview.records = .ok desired
      ∧ Cleared h request hosted preview desired := by
  obtain ⟨_, serial, diff, -, hrender, hdiff, hchanges, hconflicts,
    hblockers, hkind, hclear⟩ := buildPreview_eq_ok hpreview
  obtain ⟨hnone, hnone', -⟩ := hclear hallowed
  rw [hconflicts] at hnone
  rw [hblockers, List.append_eq_nil_iff] at hnone'
  obtain ⟨hblocked, htopology⟩ := hnone'
  unfold diffZone at hdiff
  obtain ⟨desired, hdesired, hdiff⟩ := bind_eq_ok.mp hdiff
  obtain rfl := Except.ok.inj hdiff
  dsimp only at hnone hblocked hchanges
  rw [List.filterMap_eq_nil_iff] at hnone hblocked
  have hmap := desiredRrsetMap_eq_ok.mp hdesired
  have howned := owned_of_render hrender
  refine ⟨desired, hdesired, ?_, hmap.2, hchanges, ?_, ?_, hkind, ?_⟩
  · intro rrset hrrset
    obtain ⟨record, hrecord, hmade⟩ := exists_of_forall₂ hmap.1 hrrset
    obtain ⟨hown, hsource⟩ := howned record hrecord
    exact ⟨record, wanted_of_desiredRrset hown hmade, hsource⟩
  · intro rrset hrrset
    have hmem : verdict h (observed request hosted) rrset
        ∈ desired.map (verdict h (observed request hosted)) :=
      List.mem_map_of_mem hrrset
    exact ⟨hnone _ (List.mem_append_left _ hmem),
      hblocked _ (List.mem_append_left _ hmem)⟩
  · intro rrset hrrset habsent
    refine hblocked _ (List.mem_append_right _ (List.mem_map_of_mem
      (List.mem_filter.mpr ⟨hrrset, ?_⟩)))
    rw [habsent]
    rfl
  · exact Option.toList_eq_nil_iff.mp htopology

theorem nodup_observed (request : Request) (hosted : Hosted) :
    ((observed request hosted).rrsets.map rrsetKey).Nodup :=
  nodup_rrsets request.intent.zoneName.text hosted

section cleared

variable {desired : List Rrset}

variable {wanted : Rrset} {changes : List Change} {after : Hosted}

/-- What a preview that may be applied makes of a wanted RRset. -/
theorem verdict_of_cleared (hc : Cleared h request hosted preview desired)
    (hwanted : wanted ∈ desired) :
    (get rrsetKey (observed request hosted).rrsets (rrsetKey wanted) = none
      ∧ verdict h (observed request hosted) wanted = .listed {
          action := .add
          rrset := publicRrset h wanted
          previousTemplateVersion := none })
    ∨ ∃ current there,
      get rrsetKey (observed request hosted).rrsets (rrsetKey wanted)
        = some current
      ∧ managed h current = some there
      ∧ there.source ∈ reconciledSources request.reconcileMail
      ∧ verdict h (observed request hosted) wanted
        = if settled h wanted current then .unchanged
          else .listed {
            action := .replace
            rrset := publicRrset h wanted
            previousTemplateVersion := there.templateVersion } := by
  obtain ⟨hconflict, hblocker⟩ := hc.unopposed wanted hwanted
  obtain ⟨record, hrecord, hsource⟩ := hc.wanted wanted hwanted
  unfold verdict at hconflict hblocker ⊢
  cases hget : get rrsetKey (observed request hosted).rrsets
      (rrsetKey wanted) with
  | none => exact .inl ⟨rfl, rfl⟩
  | some current =>
      rw [hget] at hconflict hblocker
      dsimp only at hconflict hblocker ⊢
      cases hmanaged : managed h current with
      | none =>
          rw [hmanaged] at hconflict
          cases hconflict
      | some there =>
          rw [hmanaged] at hblocker
          dsimp only at hblocker ⊢
          rw [hrecord.managed, Option.map_some] at hblocker ⊢
          by_cases hsame : some (recordMetadata record).source
              = some there.source
          · rw [if_neg (not_not.mpr hsame)]
            have hfold : (!sameRecords current wanted
                || !sameManagedMetadata h current wanted)
                = !settled h wanted current := by
              unfold settled
              rw [Bool.not_and]
            rw [hfold]
            refine .inr ⟨current, there, rfl, hmanaged, ?_, ?_⟩
            · rw [← Option.some.inj hsame]
              exact hsource
            · cases settled h wanted current <;> rfl
          · rw [if_pos hsame] at hblocker
            cases hblocker

variable {current rrset : Rrset} {listed : Listed}
  {reconciled : List String}

/-- What a preview that may be applied makes of an RRset that is not
wanted. -/
theorem leftover_of_cleared (hc : Cleared h request hosted preview desired)
    (hcurrent : current ∈ (observed request hosted).rrsets)
    (habsent : get rrsetKey desired (rrsetKey current) = none) :
    (managed h current = none
      ∧ leftover h (reconciledSources request.reconcileMail) current
        = .unchanged)
    ∨ ∃ there, managed h current = some there
      ∧ there.source ∈ reconciledSources request.reconcileMail
      ∧ leftover h (reconciledSources request.reconcileMail) current
        = .listed {
            action := .delete
            rrset := publicRrset h current
            previousTemplateVersion := none } := by
  have hblocker := hc.reconciled current hcurrent habsent
  unfold leftover at hblocker ⊢
  cases hmanaged : managed h current with
  | none => exact .inl ⟨rfl, rfl⟩
  | some there =>
      rw [hmanaged] at hblocker
      dsimp only at hblocker ⊢
      by_cases hmem : there.source ∈ reconciledSources request.reconcileMail
      · rw [if_pos hmem]
        exact .inr ⟨there, rfl, hmem, rfl⟩
      · rw [if_neg hmem] at hblocker
        cases hblocker

theorem unopposed_of_cleared (hc : Cleared h request hosted preview desired) :
    Unopposed h (observed request hosted) desired := by
  intro wanted hwanted current hcurrent hnone
  rcases verdict_of_cleared hc hwanted with ⟨hget, -⟩ | ⟨c, there, hget, hmanaged, -⟩
  · rw [hget] at hcurrent
    cases hcurrent
  · rw [hget] at hcurrent
    rw [Option.some.inj hcurrent, hnone] at hmanaged
    cases hmanaged

/-- The zone after the changes, key by key. -/
theorem get_after (hc : Cleared h request hosted preview desired)
    (hchanges : changesFor h (observed request (ensured preview hosted)) desired
      = .ok changes)
    (hpatched : Patched (ensured preview hosted) changes after) (k : String) :
    get rrsetKey (observed request after).rrsets k
      = outcome h (observed request hosted).rrsets desired k := by
  refine get_patched hc.nodup (fun wanted hwanted => ?_) hchanges hpatched k
  obtain ⟨record, hrecord, -⟩ := hc.wanted wanted hwanted
  exact hrecord.normal

-- ====== snapshots

theorem zoneSnapshot_readZone (h : Host) (request : Request) (hosted : Hosted) :
    zoneSnapshot h (observed request hosted).toZoneState
      = .ok { (observed request hosted).toZoneState with
          rrsets := sortBy h rrsetKey
            ((observed request hosted).rrsets.map (snapshotRrset h)) } := by
  have hid : (observed request hosted).id ≠ "" := by
    show hosted.id.getD (fqdnText request.intent.zoneName.text) ≠ ""
    cases hid : hosted.id with
    | some id =>
        intro hempty
        apply hosted.identified
        rw [hid, show id = "" from hempty]
    | none =>
        intro hempty
        have hlist := congrArg String.toList hempty
        unfold fqdnText fqdn at hlist
        simp at hlist
  unfold zoneSnapshot
  rw [if_neg]
  rintro (hname | hname)
  · exact request.intent.zoneName.nonempty hname
  · exact hid hname

/-- What the announced zone says of a key, its RRsets as they are put
together. -/
def expected (h : Host) (request : Request) (existing desired : List Rrset)
    (k : String) : Option Rrset :=
  (get rrsetKey desired k).or
    (((get rrsetKey existing k).map (snapshotRrset h)).filter
      (stays h (reconciledSources request.reconcileMail) desired))

theorem expectedAppliedZoneSnapshot_eq
    (hdesired : desiredRrsetMap h preview.records = .ok desired)
    (hnodup : (desired.map rrsetKey).Nodup) :
    ∃ rrsets : List Rrset, (rrsets.map rrsetKey).Nodup
      ∧ (∀ k, get rrsetKey rrsets k
        = expected h request (observed request hosted).rrsets desired k)
      ∧ expectedAppliedZoneSnapshot h (observed request hosted).toZoneState
          preview request.reconcileMail
        = .ok { (observed request hosted).toZoneState with
            kind := if preview.primaryKindChangeRequired then some "Primary"
              else (observed request hosted).kind
            rrsets := sortBy h rrsetKey (rrsets.map (snapshotRrset h)) } := by
  have hexisting := nodup_observed request hosted
  have hsnap := nodup_map_snapshotRrset (h := h) hexisting
  have hsorted : ((sortBy h rrsetKey ((observed request hosted).rrsets.map
      (snapshotRrset h))).map rrsetKey).Nodup :=
    ((sortBy_perm rrsetKey _).map rrsetKey).symm.nodup hsnap
  refine ⟨desired.foldl (put rrsetKey)
    ((sortBy h rrsetKey ((observed request hosted).rrsets.map
      (snapshotRrset h))).filter
        (stays h (reconciledSources request.reconcileMail) desired)),
    ?_, fun k => ?_, ?_⟩
  · exact nodup_foldl_put
      (hsorted.sublist (List.Sublist.map rrsetKey List.filter_sublist)) desired
  · rw [get_foldl_put hnodup, get_filter hsorted,
      get_perm hsorted (sortBy_perm rrsetKey _), get_map_snapshotRrset]
    rfl
  · have hread := zoneSnapshot_readZone h request hosted
    unfold expectedAppliedZoneSnapshot
    rw [hread, ok_bind, hdesired, ok_bind]
    unfold zoneSnapshot at hread ⊢
    split at hread
    · cases hread
    · rename_i hvalid
      rw [if_neg hvalid]

/-- The RRsets of a zone and of its changed form are proper. -/
theorem proper_observed (request : Request) (hosted : Hosted)
    (hrrset : rrset ∈ (observed request hosted).rrsets) : Proper rrset := by
  obtain ⟨raw, hraw, rfl⟩ := List.mem_map.mp hrrset
  exact Proper.normalized ⟨hosted.named raw hraw, hosted.typed raw hraw⟩

/-- The zone is the announced one where both say the same of each key. -/
theorem snapshot_eq_iff (hc : Cleared h request hosted preview desired)
    (hdesired : desiredRrsetMap h preview.records = .ok desired)
    (hchanges : changesFor h (observed request (ensured preview hosted)) desired
      = .ok changes)
    (hpatched : Patched (ensured preview hosted) changes after) :
    zoneSnapshot h (observed request after).toZoneState
        = expectedAppliedZoneSnapshot h (observed request hosted).toZoneState
            preview request.reconcileMail ↔
      ∀ k, (outcome h (observed request hosted).rrsets desired k).map
          (snapshotRrset h)
        = (expected h request (observed request hosted).rrsets desired k).map
            (snapshotRrset h) := by
  obtain ⟨rrsets, hnodup, hget, heq⟩ :=
    expectedAppliedZoneSnapshot_eq hdesired hc.nodup
  have hid : (observed request after).id = (observed request hosted).id := by
    show after.id.getD _ = hosted.id.getD _
    rw [hpatched.id]
    rfl
  have hkind : (observed request after).kind
      = if preview.primaryKindChangeRequired then some "Primary"
        else (observed request hosted).kind := hpatched.kind
  have hdnssec : (observed request after).dnssec
      = (observed request hosted).dnssec := hpatched.dnssec
  have hafter := nodup_observed request after
  have hsort := sortBy_rrsetKey_eq_iff (h := h)
    (nodup_map_snapshotRrset (h := h) hafter)
    (nodup_map_snapshotRrset (h := h) hnodup) (fun rrset hrrset => by
      obtain ⟨raw, hraw, rfl⟩ := List.mem_map.mp hrrset
      exact (proper_observed request after hraw).snapshotRrset)
  rw [zoneSnapshot_readZone, heq]
  have hkeys : (∀ k, get rrsetKey
        ((observed request after).rrsets.map (snapshotRrset h)) k
      = get rrsetKey (rrsets.map (snapshotRrset h)) k) ↔
      ∀ k, (outcome h (observed request hosted).rrsets desired k).map
          (snapshotRrset h)
        = (expected h request (observed request hosted).rrsets desired k).map
            (snapshotRrset h) := by
    refine forall_congr' fun k => ?_
    rw [get_map_snapshotRrset, get_map_snapshotRrset, hget,
      get_after hc hchanges hpatched]
  rw [← hkeys, ← hsort]
  constructor
  · intro hok
    exact congrArg ZoneState.rrsets (Except.ok.inj hok)
  · intro hrrsets
    have hzone : (observed request after).zoneName
        = (observed request hosted).zoneName := rfl
    refine congrArg Except.ok ?_
    rw [ZoneState.mk.injEq]
    exact ⟨hzone, hid, hkind, hdnssec, hrrsets⟩

/-- Both say the same of every key exactly where the zone is plain. -/
theorem same_iff_plain (hdesired : desiredMap h preview.records = .ok desired) :
    (∀ k, (outcome h (observed request hosted).rrsets desired k).map
          (snapshotRrset h)
        = (expected h request (observed request hosted).rrsets desired k).map
            (snapshotRrset h))
      ↔ Plain h request hosted preview := by
  have hexisting := nodup_observed request hosted
  -- One key at a time: nothing there, something wanted, something left over.
  have hkey : ∀ current ∈ (observed request hosted).rrsets,
      ((outcome h (observed request hosted).rrsets desired
          (rrsetKey current)).map (snapshotRrset h)
        = (expected h request (observed request hosted).rrsets desired
            (rrsetKey current)).map (snapshotRrset h)) ↔
      match get rrsetKey desired (rrsetKey current) with
      | some wanted => settled h wanted current = true →
          snapshotRrset h current = snapshotRrset h wanted
      | none => ∀ there, managed h current = some there →
          ∃ there, managed h (snapshotRrset h current) = some there
            ∧ there.source ∈ reconciledSources request.reconcileMail := by
    intro current hcurrent
    unfold outcome expected
    rw [get_of_mem hexisting hcurrent]
    cases hget : get rrsetKey desired (rrsetKey current) with
    | some wanted =>
        dsimp only
        rw [Option.some_or, Option.map_some, Option.filter_some]
        by_cases hset : settled h wanted current = true
        · rw [if_pos hset, Option.getD_some]
          exact ⟨fun heq _ => Option.some.inj heq,
            fun heq => congrArg some (heq hset)⟩
        · rw [if_neg hset, Option.getD_none]
          exact iff_of_true rfl fun hs => absurd hs hset
    | none =>
        dsimp only
        have hstays : stays h (reconciledSources request.reconcileMail) desired
            (snapshotRrset h current) = true ↔
            ¬∃ there, managed h (snapshotRrset h current) = some there
              ∧ there.source ∈ reconciledSources request.reconcileMail := by
          unfold stays
          rw [rrsetKey_snapshotRrset, hget, Option.isSome_none, Bool.or_false,
            Bool.not_eq_true', Bool.eq_false_iff, ne_eq, Option.any_eq_true]
          simp
        rw [Option.none_or, Option.map_some, Option.filter_some,
          Option.filter_some]
        cases hmanaged : managed h current with
        | none =>
            have hsnap := (managed_snapshotRrset_eq_none (h := h) current).mpr
              hmanaged
            rw [if_pos Option.isNone_none,
              if_pos (hstays.mpr (by rw [hsnap]; simp)),
              Option.map_some, Option.map_some, snapshotRrset_snapshotRrset]
            exact iff_of_true rfl nofun
        | some there =>
            rw [if_neg (by simp)]
            constructor
            · intro heq _ _
              by_contra hnot
              rw [if_pos (hstays.mpr hnot)] at heq
              cases heq
            · intro hall
              rw [if_neg fun hs => hstays.mp hs (hall there rfl)]
  constructor
  · intro hall desired' hdesired' rrset hrrset
    rw [hdesired] at hdesired'
    obtain rfl := Except.ok.inj hdesired'
    exact (hkey rrset hrrset).mp (hall (rrsetKey rrset))
  · intro hplain k
    cases hget : get rrsetKey (observed request hosted).rrsets k with
    | some current =>
        obtain ⟨hmem, rfl⟩ := (get_eq_some_iff hexisting).mp hget
        exact (hkey current hmem).mpr (hplain desired hdesired current hmem)
    | none =>
        unfold outcome expected
        rw [hget]
        cases get rrsetKey desired k with
        | none => rfl
        | some wanted => rfl

-- ====== the other passes

theorem settled_self (hw : Wanted h record wanted) :
    settled h wanted wanted = true := by
  unfold settled sameRecords sameManagedMetadata
  rw [hw.managed]
  simp

/-- A wanted RRset is there afterwards, and is what is wanted. -/
theorem get_wanted (hc : Cleared h request hosted preview desired)
    (hchanges : changesFor h (observed request (ensured preview hosted)) desired
      = .ok changes)
    (hpatched : Patched (ensured preview hosted) changes after)
    (hwanted : wanted ∈ desired) :
    ∃ current, get rrsetKey (observed request after).rrsets (rrsetKey wanted)
        = some current ∧ settled h wanted current = true := by
  obtain ⟨record, hrecord, -⟩ := hc.wanted wanted hwanted
  rw [get_after hc hchanges hpatched]
  unfold outcome
  rw [get_of_mem hc.nodup hwanted]
  dsimp only
  refine ⟨_, rfl, ?_⟩
  cases hfilter : (get rrsetKey (observed request hosted).rrsets
      (rrsetKey wanted)).filter (settled h wanted) with
  | none => exact settled_self hrecord
  | some current => exact (Option.filter_eq_some_iff.mp hfilter).2

/-- Nothing managed is there afterwards that is not wanted. -/
theorem obsolete_after (hc : Cleared h request hosted preview desired)
    (hchanges : changesFor h (observed request (ensured preview hosted)) desired
      = .ok changes)
    (hpatched : Patched (ensured preview hosted) changes after) :
    obsolete h (observed request after) desired = [] := by
  unfold obsolete
  rw [List.filter_eq_nil_iff]
  intro current hcurrent hobsolete
  rw [Bool.and_eq_true, Option.isNone_iff_eq_none] at hobsolete
  have hget := get_of_mem (nodup_observed request after) hcurrent
  rw [get_after hc hchanges hpatched] at hget
  unfold outcome at hget
  rw [hobsolete.1] at hget
  have hnone := (Option.filter_eq_some_iff.mp hget).2
  rw [Option.isNone_iff_eq_none] at hnone
  rw [hnone] at hobsolete
  cases hobsolete.2

/-- A zone that nothing is wrong with stays of its kind or becomes
primary. -/
theorem topologyState_eq {secondaryDns : List String}
    (hblocker : (topologyState existing secondaryDns).blocker = none) :
    ((secondaryDns.isEmpty = true ∨ primaryKind existing.kind = true)
      ∧ topologyState existing secondaryDns
        = { primaryKindChangeRequired := false, blocker := none })
    ∨ topologyState existing secondaryDns
        = { primaryKindChangeRequired := true, blocker := none } := by
  unfold topologyState at hblocker ⊢
  by_cases hfits : (secondaryDns.isEmpty || primaryKind existing.kind) = true
  · rw [if_pos hfits]
    exact .inl ⟨Bool.or_eq_true _ _ ▸ hfits, rfl⟩
  · rw [if_neg hfits] at hblocker ⊢
    by_cases hnative : existing.kind = some "Native"
    · rw [if_pos hnative]
      exact .inr rfl
    · rw [if_neg hnative] at hblocker
      cases hblocker

theorem inspected_after (hc : Cleared h request hosted preview desired)
    (hchanges : changesFor h (observed request (ensured preview hosted)) desired
      = .ok changes)
    (hpatched : Patched (ensured preview hosted) changes after) :
    ∃ kind serial notified dnssec managed manual,
      inspectAgainstDesired h (some (observed request after)) desired
          (!request.secondaryDns.isEmpty)
        = .satisfied kind serial notified dnssec managed manual := by
  have hprimary : (!request.secondaryDns.isEmpty
      && !primaryKind (observed request after).kind) = false := by
    have hkind : (observed request after).kind
        = if preview.primaryKindChangeRequired then some "Primary"
          else (observed request hosted).kind := hpatched.kind
    obtain ⟨hchange, hblocker⟩ := hc.topology
    rw [hkind, hchange]
    rcases topologyState_eq hblocker with ⟨hfits, heq⟩ | heq
    · rw [heq, if_neg Bool.false_ne_true]
      rcases hfits with hfits | hfits
      · rw [hfits]
        rfl
      · rw [hfits, Bool.not_true, Bool.and_false]
    · rw [heq, if_pos rfl]
      exact Bool.and_false _
  have hall : desired.findSome? (inspectRrset h (observed request after))
      = none := by
    rw [List.findSome?_eq_none_iff]
    intro wanted hwanted
    obtain ⟨record, hrecord, -⟩ := hc.wanted wanted hwanted
    obtain ⟨current, hget, hset⟩ := get_wanted hc hchanges hpatched hwanted
    unfold settled at hset
    rw [Bool.and_eq_true] at hset
    have hmanaged : (managed h current).isNone = false := by
      have hmeta := hset.2
      unfold sameManagedMetadata at hmeta
      rw [Bool.and_eq_true] at hmeta
      rw [← Option.not_isSome, hmeta.1]
      rfl
    unfold inspectRrset
    dsimp only
    rw [hget]
    dsimp only
    rw [hmanaged, if_neg (by decide), hset.1, if_neg (by decide), hset.2,
      if_neg (by decide)]
  unfold inspectAgainstDesired
  dsimp only
  rw [hprimary, if_neg (by decide), hall]
  dsimp only
  rw [obsolete_after hc hchanges hpatched]
  exact ⟨_, _, _, _, _, _, rfl⟩

theorem stable_after (hc : Cleared h request hosted preview desired)
    (hchanges : changesFor h (observed request (ensured preview hosted)) desired
      = .ok changes)
    (hpatched : Patched (ensured preview hosted) changes after) :
    changesFor h (observed request after) desired = .ok [] := by
  refine changesFor_eq_ok.mpr ⟨?_, ?_⟩
  · intro wanted hwanted current hcurrent hnone
    obtain ⟨there, hget, hset⟩ := get_wanted hc hchanges hpatched hwanted
    rw [hget] at hcurrent
    unfold settled sameManagedMetadata at hset
    rw [Option.some.inj hcurrent, hnone] at hset
    simp at hset
  · rw [obsolete_after hc hchanges hpatched, List.map_nil, List.append_nil]
    refine (List.filterMap_eq_nil_iff.mpr fun wanted hwanted => ?_).symm
    obtain ⟨there, hget, hset⟩ := get_wanted hc hchanges hpatched hwanted
    unfold rewritten
    rw [hget, Option.any_some, if_pos hset]

/-- What is not of a reconciled source stays as it is. -/
theorem untouched_after (hc : Cleared h request hosted preview desired)
    (hchanges : changesFor h (observed request (ensured preview hosted)) desired
      = .ok changes)
    (hpatched : Patched (ensured preview hosted) changes after)
    (hrrset : rrset ∈ (observed request hosted).rrsets)
    (hforeign : ∀ there, managed h rrset = some there →
      there.source ∉ reconciledSources request.reconcileMail) :
    rrset ∈ (observed request after).rrsets := by
  have hget := get_of_mem (nodup_observed request hosted) hrrset
  have hafter := get_after hc hchanges hpatched (rrsetKey rrset)
  unfold outcome at hafter
  cases hdesired : get rrsetKey desired (rrsetKey rrset) with
  | some wanted =>
      -- A wanted RRset only takes the place of one of a reconciled source.
      exfalso
      obtain ⟨hwanted, hkey⟩ := (get_eq_some_iff hc.nodup).mp hdesired
      rcases verdict_of_cleared hc hwanted with
        ⟨hnone, -⟩ | ⟨current, there, hcurrent, hmanaged, hsource, -⟩
      · rw [hkey, hget] at hnone
        cases hnone
      · rw [hkey, hget] at hcurrent
        rw [← Option.some.inj hcurrent] at hmanaged
        exact hforeign there hmanaged hsource
  | none =>
      rw [hdesired, hget, Option.filter_some] at hafter
      rcases leftover_of_cleared hc hrrset hdesired with
        ⟨hmanaged, -⟩ | ⟨there, hmanaged, hsource, -⟩
      · rw [hmanaged, if_pos Option.isNone_none] at hafter
        exact mem_of_get hafter
      · exact absurd hsource (hforeign there hmanaged)

-- ====== listed changes

/-- A listed change has the key of its RRset. -/
theorem listedKey_public (hp : Proper rrset)
    (hlisted : listed.rrset = publicRrset h rrset) :
    listedKey listed = rrsetKey rrset := by
  have hname : ownerText rrset.name ++ "." = rrset.name := by
    rw [← String.toList_inj, String.toList_append]
    unfold ownerText
    rw [String.toList_ofList, Text.stripDot, if_pos hp.name.absolute]
    exact List.dropLast_append_getLast? '.' hp.name.absolute
  unfold listedKey rrsetKey
  rw [hlisted]
  show keyText (ownerText rrset.name ++ ".") rrset.type = _
  rw [hname]

theorem rrset_of_verdict
    (hlisted : (verdict h existing wanted).change? = some listed) :
    listed.rrset = publicRrset h wanted := by
  unfold verdict at hlisted
  split at hlisted
  · rw [← Option.some.inj hlisted]
  · split at hlisted
    · cases hlisted
    · split at hlisted
      · cases hlisted
      · split at hlisted
        · rw [← Option.some.inj hlisted]
        · cases hlisted

theorem rrset_of_leftover
    (hlisted : (leftover h reconciled current).change? = some listed) :
    listed.rrset = publicRrset h current := by
  unfold leftover at hlisted
  split at hlisted
  · cases hlisted
  · split at hlisted
    · rw [← Option.some.inj hlisted]
    · cases hlisted

theorem proper_wanted (hc : Cleared h request hosted preview desired)
    (hwanted : wanted ∈ desired) : Proper wanted := by
  obtain ⟨record, hrecord, -⟩ := hc.wanted wanted hwanted
  exact hrecord.proper

/-- The RRsets of a zone that nothing desired has the key of. -/
def unwanted (request : Request) (hosted : Hosted) (desired : List Rrset) :
    List Rrset :=
  (observed request hosted).rrsets.filter fun rrset =>
    (get rrsetKey desired (rrsetKey rrset)).isNone

theorem nodup_unwanted : ((unwanted request hosted desired).map rrsetKey).Nodup :=
  (nodup_observed request hosted).sublist
    (List.Sublist.map rrsetKey List.filter_sublist)

theorem changes_eq (hc : Cleared h request hosted preview desired) :
    preview.changes
      = desired.filterMap (fun wanted =>
          (verdict h (observed request hosted) wanted).change?)
        ++ (unwanted request hosted desired).filterMap fun current =>
          (leftover h (reconciledSources request.reconcileMail)
            current).change? := by
  rw [hc.changes, List.filterMap_append, List.filterMap_map,
    List.filterMap_map]
  rfl

theorem key_of_verdict (hc : Cleared h request hosted preview desired) :
    ∀ wanted ∈ desired, ∀ listed,
      (verdict h (observed request hosted) wanted).change? = some listed →
      listedKey listed = rrsetKey wanted :=
  fun _ hwanted _ hlisted =>
    listedKey_public (proper_wanted hc hwanted) (rrset_of_verdict hlisted)

theorem key_of_leftover :
    ∀ current ∈ unwanted request hosted desired, ∀ listed,
      (leftover h reconciled current).change? = some listed →
      listedKey listed = rrsetKey current :=
  fun _ hcurrent _ hlisted =>
    listedKey_public (proper_observed request hosted
      (List.mem_filter.mp hcurrent).1) (rrset_of_leftover hlisted)

/-- No key is listed twice. -/
theorem nodup_listed (hc : Cleared h request hosted preview desired) :
    (preview.changes.map listedKey).Nodup := by
  rw [changes_eq hc, List.map_append]
  refine List.Nodup.append (nodup_filterMap (key_of_verdict hc) hc.nodup)
    (nodup_filterMap key_of_leftover nodup_unwanted) ?_
  intro k hk hk'
  obtain ⟨listed, hlisted, rfl⟩ := List.mem_map.mp hk
  obtain ⟨wanted, hwanted, hverdict⟩ := List.mem_filterMap.mp hlisted
  obtain ⟨listed', hlisted', hsame⟩ := List.mem_map.mp hk'
  obtain ⟨current, hcurrent, hleftover⟩ := List.mem_filterMap.mp hlisted'
  rw [key_of_verdict hc wanted hwanted listed hverdict,
    key_of_leftover current hcurrent listed' hleftover] at hsame
  have habsent := (List.mem_filter.mp hcurrent).2
  rw [Option.isNone_iff_eq_none, get_eq_none] at habsent
  exact habsent wanted hwanted hsame.symm

/-- What is listed of a key. -/
theorem get_listed (hc : Cleared h request hosted preview desired) (k : String) :
    get listedKey preview.changes k
      = match get rrsetKey desired k with
        | some wanted => (verdict h (observed request hosted) wanted).change?
        | none => (get rrsetKey (observed request hosted).rrsets k).bind
            fun current => (leftover h
              (reconciledSources request.reconcileMail) current).change? := by
  rw [changes_eq hc, get_append, get_filterMap (key_of_verdict hc) hc.nodup,
    get_filterMap key_of_leftover nodup_unwanted]
  unfold unwanted
  rw [get_filter (nodup_observed request hosted)]
  cases hdesired : get rrsetKey desired k with
  | some wanted =>
      dsimp only
      rw [Option.bind_some]
      cases hget : get rrsetKey (observed request hosted).rrsets k with
      | none => exact Option.or_none
      | some current =>
          rw [Option.filter_some, key_of_get hget, hdesired,
            Option.isNone_some, if_neg Bool.false_ne_true]
          exact Option.or_none
  | none =>
      dsimp only
      rw [Option.bind_none, Option.none_or]
      cases hget : get rrsetKey (observed request hosted).rrsets k with
      | none => rfl
      | some current =>
          rw [Option.filter_some, key_of_get hget, hdesired,
            if_pos Option.isNone_none]

/-- The changes listed are the RRsets that differ. -/
theorem listed_iff_differs (hc : Cleared h request hosted preview desired)
    (hchanges : changesFor h (observed request (ensured preview hosted)) desired
      = .ok changes)
    (hpatched : Patched (ensured preview hosted) changes after) (k : String)
    (action : Action) :
    (∃ listed ∈ preview.changes, listed.action = action
        ∧ listedKey listed = k)
      ↔ Differs action (get rrsetKey (observed request hosted).rrsets k)
          (get rrsetKey (observed request after).rrsets k) := by
  have hsome : (∃ listed ∈ preview.changes, listed.action = action
        ∧ listedKey listed = k)
      ↔ (get listedKey preview.changes k).map Listed.action = some action := by
    rw [Option.map_eq_some_iff]
    constructor
    · rintro ⟨listed, hmem, haction, hkey⟩
      exact ⟨listed, (get_eq_some_iff (nodup_listed hc)).mpr ⟨hmem, hkey⟩,
        haction⟩
    · rintro ⟨listed, hget, haction⟩
      obtain ⟨hmem, hkey⟩ := (get_eq_some_iff (nodup_listed hc)).mp hget
      exact ⟨listed, hmem, haction, hkey⟩
  rw [hsome, get_listed hc, get_after hc hchanges hpatched]
  unfold outcome
  cases hdesired : get rrsetKey desired k with
  | some wanted =>
      dsimp only
      obtain ⟨hwanted, rfl⟩ := (get_eq_some_iff hc.nodup).mp hdesired
      rcases verdict_of_cleared hc hwanted with
        ⟨hget, hverdict⟩ | ⟨current, there, hget, -, -, hverdict⟩
      · rw [hget, hverdict]
        cases action <;> simp [Verdict.change?, Differs]
      · obtain ⟨record, hrecord, -⟩ := hc.wanted wanted hwanted
        rw [hget, hverdict, Option.filter_some]
        by_cases hset : settled h wanted current = true
        · rw [if_pos hset, if_pos hset]
          cases action <;> simp [Verdict.change?, Differs]
        · have hne : current ≠ wanted := by
            rintro rfl
            exact hset (settled_self hrecord)
          rw [if_neg hset, if_neg hset]
          cases action <;> simp [Verdict.change?, Differs, hne]
  | none =>
      dsimp only
      cases hget : get rrsetKey (observed request hosted).rrsets k with
      | none => cases action <;> simp [Differs]
      | some current =>
          obtain ⟨hcurrent, rfl⟩ :=
            (get_eq_some_iff (nodup_observed request hosted)).mp hget
          rw [Option.bind_some, Option.filter_some]
          rcases leftover_of_cleared hc hcurrent hdesired with
            ⟨hmanaged, hleft⟩ | ⟨there, hmanaged, -, hleft⟩
          · rw [hleft, hmanaged, if_pos Option.isNone_none]
            cases action <;> simp [Verdict.change?, Differs]
          · rw [hleft, hmanaged]
            cases action <;> simp [Verdict.change?, Differs]

end cleared

-- ====== result

/-- A zone that a `PATCH` leaves. -/
theorem exists_patched (before : Hosted) (changes : List Change)
    (hproper : ∀ rrset, .replace rrset ∈ changes → Proper rrset) :
    ∃ after, Patched before changes after := by
  have hall : ∀ rrset ∈ patch rrsetKey before.rrsets changes, Proper rrset := by
    intro rrset hrrset
    rcases mem_patch hrrset with hmem | hmem
    · exact ⟨before.named rrset hmem, before.typed rrset hmem⟩
    · exact hproper rrset hmem
  exact ⟨{
    before with
    rrsets := patch rrsetKey before.rrsets changes
    distinct := nodup_patch before.distinct changes
    named := fun rrset hrrset => (hall rrset hrrset).name
    typed := fun rrset hrrset => (hall rrset hrrset).type },
    rfl, rfl, rfl, .refl _⟩

theorem plain_of_agrees
    (hpreview : buildPreview h request today (some (observed request hosted))
      = .ok preview) (hallowed : preview.applyAllowed = true)
    (hagrees : Agrees h request hosted preview) :
    Plain h request hosted preview := by
  obtain ⟨desired, hdesired, hc⟩ := cleared_of_buildPreview hpreview hallowed
  have hmap := desiredMap_eq_ok.mpr hdesired
  obtain ⟨desired', changes, hdesired', hchanges, hall⟩ := hagrees
  rw [hmap] at hdesired'
  obtain rfl := Except.ok.inj hdesired'
  obtain ⟨after, hpatched⟩ := exists_patched (ensured preview hosted) changes
    (fun rrset hrrset => by
      obtain ⟨-, rfl⟩ := changesFor_eq_ok.mp hchanges
      exact proper_wanted hc (mem_of_replace hrrset))
  exact (same_iff_plain hmap).mp
    ((snapshot_eq_iff hc hdesired hchanges hpatched).mp
      (hall after hpatched).snapshot)

theorem agrees_of_plain
    (hpreview : buildPreview h request today (some (observed request hosted))
      = .ok preview) (hallowed : preview.applyAllowed = true)
    (hplain : Plain h request hosted preview) :
    Agrees h request hosted preview := by
  obtain ⟨desired, hdesired, hc⟩ := cleared_of_buildPreview hpreview hallowed
  have hmap := desiredMap_eq_ok.mpr hdesired
  have hbefore := unopposed_of_cleared hc
  have hunopposed : Unopposed h (observed request (ensured preview hosted))
      desired :=
    fun wanted hwanted current hget => hbefore wanted hwanted current hget
  have hok : changesFor h (observed request (ensured preview hosted)) desired
      = .ok _ := changesFor_eq_ok.mpr ⟨hunopposed, rfl⟩
  refine ⟨desired, _, hmap, hok, fun after hpatched => ?_⟩
  have hsnapshot := (snapshot_eq_iff hc hdesired hok hpatched).mpr
    ((same_iff_plain hmap).mpr hplain)
  exact {
    snapshot := hsnapshot
    digest := congrArg (Except.map (digest h)) hsnapshot
    inspected := inspected_after hc hok hpatched
    untouched := fun rrset hrrset hforeign =>
      untouched_after hc hok hpatched hrrset hforeign
    listed := listed_iff_differs hc hok hpatched
    once := nodup_listed hc
    stable := stable_after hc hok hpatched }

/-- Applying a preview leaves the zone that was announced exactly where the
managed RRsets of the zone are plain; everything else the preview says of it
holds of every preview that may be applied. -/
theorem reapply_agrees_iff (h : Host) (request : Request) (today : Day)
    (hosted : Hosted) (preview : Preview)
    (hpreview : buildPreview h request today (some (observed request hosted))
      = .ok preview) (hallowed : preview.applyAllowed = true) :
    Agrees h request hosted preview ↔ Plain h request hosted preview :=
  ⟨plain_of_agrees hpreview hallowed, agrees_of_plain hpreview hallowed⟩

-- ====== samples

def sampleRequest : Request where
  intent := {
    zoneName := {
      text := "example.org"
      nonempty := by decide
      allowed := Text.forall_mem_of_all (by decide)
      relative := by decide }
    soa := {
      primaryNs := "ns1.example.org".toList
      rname := "hostmaster.example.org".toList
      refresh := 3600
      retry := 600
      expire := 1209600
      minimum := 300
      ttl := 3600 }
    templateVersion := 1
    templateRecords := [
      { key := "note"
        owner := {
          text := "_note.example.org"
          nonempty := by decide
          allowed := Text.forall_mem_of_all (by decide)
          relative := by decide }
        type := .txt
        ttl := none
        values := ["kept".toList] },
      { key := "mark"
        owner := {
          text := "_mark.example.org"
          nonempty := by decide
          allowed := Text.forall_mem_of_all (by decide)
          relative := by decide }
        type := .txt
        ttl := none
        values := ["new".toList] }]
    mailRecords := [] }
  aliases := []
  secondaryDns := []
  reconcileMail := false
  unresolved := fun _ => rfl

/-- The comment of the panel on an RRset of the template. -/
def sampleComment (key : String) : Comment where
  account := "yunpanel"
  content := commentPrefix ++ sampleEncode {
    source := "template"
    key := key
    templateVersion := some 1 }

/-- A zone with its SOA and a note, which has more comments as given. -/
def sampleRrsets (comments : List Comment) : List Rrset := [
  { name := "example.org."
    type := "SOA"
    ttl := some 3600
    records := [{
      content := "ns1.example.org. hostmaster.example.org. 2026010101 3600 600 1209600 300"
      disabled := false }]
    comments := [sampleComment "zone-soa"] },
  { name := "_note.example.org."
    type := "TXT"
    ttl := some 3600
    records := [{ content := "\"kept\"", disabled := false }]
    comments := sampleComment "note" :: comments }]

theorem proper_sampleRrsets (comments : List Comment) :
    ∀ rrset ∈ sampleRrsets comments, Proper rrset := by
  have hnames : ∀ name ∈ ["example.org.", "_note.example.org."], IsName name := by
    intro name hname
    simp only [List.mem_cons, List.not_mem_nil, or_false] at hname
    rcases hname with rfl | rfl <;>
      exact ⟨Text.forall_mem_of_all (by decide), by decide⟩
  intro rrset hrrset
  unfold sampleRrsets at hrrset
  simp only [List.mem_cons, List.not_mem_nil, or_false] at hrrset
  rcases hrrset with rfl | rfl
  · exact ⟨hnames _ (by simp), isType_text .soa⟩
  · exact ⟨hnames _ (by simp), isType_text .txt⟩

def sampleHosted (comments : List Comment) : Hosted where
  id := none
  kind := some "Native"
  dnssec := false
  notifiedSerial := none
  rrsets := sampleRrsets comments
  identified := by decide
  distinct := by
    show [keyText "example.org." "SOA", keyText "_note.example.org." "TXT"].Nodup
    decide +kernel
  named := fun rrset hrrset => (proper_sampleRrsets comments rrset hrrset).name
  typed := fun rrset hrrset => (proper_sampleRrsets comments rrset hrrset).type

/-- What is previewed for a zone on the second of January 2026. -/
def samplePreview (comments : List Comment) : Except Failure Preview :=
  buildPreview sampleHost sampleRequest { year := 2026, month := 1, day := 2 }
    (some (observed sampleRequest (sampleHosted comments)))

theorem ok_of_toOption {α : Type} {x : Except Failure α} {a : α}
    (hx : x.toOption = some a) : x = .ok a := by
  cases x with
  | error e => cases hx
  | ok b => rw [Option.some.inj hx]

/-- Whether an RRset of a zone is as plain as `Plain` asks. -/
def plainAt (h : Host) (desired : List Rrset) (rrset : Rrset) : Bool :=
  match get rrsetKey desired (rrsetKey rrset) with
  | some wanted => !settled h wanted rrset
      || snapshotRrset h rrset == snapshotRrset h wanted
  | none => (managed h rrset).isNone

theorem plain_of_plainAt {desired : List Rrset}
    (hdesired : desiredMap h preview.records = .ok desired)
    (hall : (observed request hosted).rrsets.all (plainAt h desired) = true) :
    Plain h request hosted preview := by
  intro desired' hdesired' rrset hrrset
  rw [hdesired] at hdesired'
  obtain rfl := Except.ok.inj hdesired'
  have hat := List.all_eq_true.mp hall rrset hrrset
  unfold plainAt at hat
  cases hget : get rrsetKey desired (rrsetKey rrset) with
  | some wanted =>
      rw [hget] at hat
      dsimp only at hat ⊢
      intro hset
      rw [hset] at hat
      simpa using hat
  | none =>
      rw [hget] at hat
      dsimp only at hat ⊢
      intro there hthere
      rw [hthere] at hat
      cases hat

/-- The comment of somebody else on an RRset of the panel. -/
def strangeComment : Comment where
  account := "admin"
  content := "checked"

theorem samples_run :
    (samplePreview []).toOption.map (fun preview =>
      (preview.applyAllowed, preview.changes.map listedKey,
        (desiredMap sampleHost preview.records).toOption.map fun desired =>
          (observed sampleRequest (sampleHosted [])).rrsets.all
            (plainAt sampleHost desired)))
      = some (true,
        [keyText "example.org." "SOA", keyText "_mark.example.org." "TXT"],
        some true)
    ∧ (samplePreview [strangeComment]).toOption.map (fun preview =>
      (preview.applyAllowed,
        (desiredMap sampleHost preview.records).toOption.map fun desired =>
          (observed sampleRequest
            (sampleHosted [strangeComment])).rrsets.any fun rrset =>
              (get rrsetKey desired (rrsetKey rrset)).any fun wanted =>
                settled sampleHost wanted rrset
                  && snapshotRrset sampleHost rrset
                    != snapshotRrset sampleHost wanted))
      = some (true, some true) := by
  constructor <;> decide +kernel

/-- A new record is put into a plain zone as it is announced. -/
theorem plain_zone_agrees :
    ∃ preview, samplePreview [] = .ok preview
      ∧ preview.changes.map listedKey
        = [keyText "example.org." "SOA", keyText "_mark.example.org." "TXT"]
      ∧ Agrees sampleHost sampleRequest (sampleHosted []) preview := by
  obtain ⟨preview, hpreview, hfields⟩ :=
    Option.map_eq_some_iff.mp samples_run.1
  obtain ⟨hallowed, hfields⟩ := Prod.mk.inj hfields
  obtain ⟨hlisted, hplain⟩ := Prod.mk.inj hfields
  obtain ⟨desired, hdesired, hall⟩ := Option.map_eq_some_iff.mp hplain
  have hok := ok_of_toOption hpreview
  exact ⟨preview, hok, hlisted, (reapply_agrees_iff sampleHost sampleRequest
    { year := 2026, month := 1, day := 2 } (sampleHosted []) preview hok
    hallowed).mpr (plain_of_plainAt (ok_of_toOption hdesired) hall)⟩

/-- With one more comment on an RRset that is left alone, the zone is not the
announced one. -/
theorem commented_zone_differs :
    ¬∀ preview, samplePreview [strangeComment] = .ok preview →
      preview.applyAllowed = true →
      Agrees sampleHost sampleRequest (sampleHosted [strangeComment])
        preview := by
  intro hclaim
  obtain ⟨preview, hpreview, hfields⟩ :=
    Option.map_eq_some_iff.mp samples_run.2
  obtain ⟨hallowed, hfields⟩ := Prod.mk.inj hfields
  obtain ⟨desired, hdesired, hany⟩ := Option.map_eq_some_iff.mp hfields
  have hok := ok_of_toOption hpreview
  have hplain := plain_of_agrees hok hallowed (hclaim preview hok hallowed)
  obtain ⟨rrset, hrrset, hdiffers⟩ := List.any_eq_true.mp hany
  obtain ⟨wanted, hwanted, hdiffers⟩ := (Option.any_eq_true _ _).mp hdiffers
  have hat := hplain desired (ok_of_toOption hdesired) rrset hrrset
  rw [hwanted] at hat
  rw [Bool.and_eq_true, bne_iff_ne] at hdiffers
  exact hdiffers.2 (hat hdiffers.1)

example : Day.serial ⟨2026, 1, 2⟩ = 2026010201 := by decide +kernel

end Yunpanel.Dns.Reapply
