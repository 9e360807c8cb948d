/-
A rollback leaves exactly the zone of the snapshot.

# How it is said

A plan speaks of the keys of the two snapshots, one change at most for each
(`changeAt`). What a key is left with after the changes follows from what it
had: either it had the state of the snapshot before already, or it had the
state of the one after and is rewritten. A zone with anything else in it is
refused, and refused is nothing more than that
(`rollbackSnapshotPlan_ok_iff`).
-/
import Yunpanel.Dns.Proofs.Zone
import Yunpanel.Dns.Restore

namespace Yunpanel.Dns.Restore

open Lib Lib.Keyed Lib.Result

variable {h : Host} {before after : ZoneState}

-- ====== snapshots

/-- What a snapshot that passed the checks is. -/
structure Checked (snapshot : ZoneState) : Prop where
  distinct : (snapshot.rrsets.map rrsetKey).Nodup
  normal : ∀ rrset ∈ snapshot.rrsets,
    normalizedExistingRrset rrset = rrset

variable {normalizedZone key : String} {observed : List Rrset}
  {current : Zone} {hosted : Hosted}

theorem checked_of_normalizeRollbackSnapshot {value snapshot : ZoneState}
    (hok : normalizeRollbackSnapshot h value normalizedZone = .ok snapshot) :
    Checked snapshot := by
  unfold normalizeRollbackSnapshot at hok
  obtain ⟨taken, htaken, hrest⟩ := bind_eq_ok.mp hok
  obtain ⟨name, -, hrest⟩ := bind_eq_ok.mp hrest
  obtain ⟨_, -, hrest⟩ := bind_eq_ok.mp hrest
  obtain ⟨_, hdistinct, hrest⟩ := bind_eq_ok.mp hrest
  obtain rfl := Except.ok.inj hrest
  refine ⟨by simpa using hdistinct, fun rrset hrrset => ?_⟩
  unfold zoneSnapshot at htaken
  split at htaken
  · cases htaken
  · obtain rfl := Except.ok.inj htaken
    have hmem := (sortBy_perm (h := h) rrsetKey _).mem_iff.mp hrrset
    obtain ⟨raw, -, rfl⟩ := List.mem_map.mp hmem
    unfold snapshotRrset normalizedExistingRrset
    dsimp only
    rw [lowerText_lowerText, upperText_upperText]

-- ====== keys

theorem sameRrsetState_eq (left right : List Rrset) (key : String) :
    sameRrsetState (get rrsetKey left key) (get rrsetKey right key)
      = decide (stateAt left key = stateAt right key) := by
  unfold sameRrsetState stateAt
  exact beq_eq_decide _ _

/-- What a plan does to a key it accepts. -/
def changeAt (before observed : List Rrset) (key : String) :
    Option Change :=
  if stateAt observed key = stateAt before key then none
  else
    some (match get rrsetKey before key with
      | none => .delete key
      | some previous => .replace previous)

/-- A key is accepted in either state, and in no other. -/
theorem restoreChange_eq_ok_iff {before after : List Rrset}
    {change : Option Change} :
    restoreChange before after observed key = .ok change
      ↔ (stateAt observed key = stateAt before key
          ∨ stateAt observed key = stateAt after key)
        ∧ change = changeAt before observed key := by
  unfold restoreChange changeAt
  dsimp only
  rw [sameRrsetState_eq before after, sameRrsetState_eq observed before,
    sameRrsetState_eq observed after]
  by_cases hpresent : stateAt observed key = stateAt before key
  · simp [hpresent, eq_comm]
  · by_cases hsame : stateAt before key = stateAt after key
    · have hafter : ¬stateAt observed key = stateAt after key :=
        hsame ▸ hpresent
      simp [hsame, hafter]
    · by_cases hafter : stateAt observed key = stateAt after key
      · cases hget : get rrsetKey before key with
        | none => simp [hsame, hafter, Ne.symm hsame, eq_comm]
        | some previous => simp [hsame, hafter, Ne.symm hsame, eq_comm]
      · simp [hpresent, hsame, hafter]

theorem key_changeAt {before : List Rrset} {change : Change}
    (hchange : changeAt before observed key = some change) :
    change.key rrsetKey = key := by
  unfold changeAt at hchange
  split at hchange
  · cases hchange
  · obtain rfl := Option.some.inj hchange
    cases hget : get rrsetKey before key with
    | none => rfl
    | some previous =>
        show rrsetKey previous = key
        exact key_of_get hget

/-- The keys a plan speaks of. -/
def planKeys (before after : List Rrset) : List String :=
  before.map rrsetKey ++ (after.map rrsetKey).filter fun key =>
    (get rrsetKey before key).isNone

theorem nodup_planKeys {before after : List Rrset}
    (hbefore : (before.map rrsetKey).Nodup)
    (hafter : (after.map rrsetKey).Nodup) : (planKeys before after).Nodup := by
  refine List.Nodup.append hbefore (hafter.filter _) fun key hkey hlate => ?_
  have hnone := (List.mem_filter.mp hlate).2
  rw [Option.isNone_iff_eq_none, get_eq_none] at hnone
  obtain ⟨rrset, hrrset, hsame⟩ := List.mem_map.mp hkey
  exact hnone rrset hrrset hsame

/-- A key a plan does not speak of is in neither snapshot. -/
theorem stateAt_of_notMem {before after : List Rrset}
    (hkey : key ∉ planKeys before after) :
    stateAt before key = none ∧ stateAt after key = none := by
  unfold planKeys at hkey
  rw [List.mem_append, not_or, List.mem_filter] at hkey
  have hbefore : get rrsetKey before key = none :=
    get_eq_none.mpr fun rrset hrrset hsame =>
      hkey.1 (List.mem_map.mpr ⟨rrset, hrrset, hsame⟩)
  have hafter : get rrsetKey after key = none :=
    get_eq_none.mpr fun rrset hrrset hsame =>
      hkey.2 ⟨List.mem_map.mpr ⟨rrset, hrrset, hsame⟩, by rw [hbefore]; rfl⟩
  unfold stateAt
  rw [hbefore, hafter]
  exact ⟨rfl, rfl⟩

-- ====== plans

theorem restoreKind_eq_ok_iff {current before after : Option String}
    {required : Bool} :
    restoreKind current before after = .ok required
      ↔ (current = before ∨ current = after)
        ∧ required = decide (current ≠ before) := by
  unfold restoreKind
  by_cases hsame : before = after
  · by_cases hcurrent : current = before
    · simp [← hsame, hcurrent, eq_comm]
    · simp [← hsame, hcurrent]
  · by_cases hafter : current = after
    · simp [hsame, hafter, Ne.symm hsame, eq_comm]
    · by_cases hcurrent : current = before
      · simp [hsame, hcurrent, eq_comm]
      · simp [hsame, hcurrent, hafter]

/-- The plan there is of a zone that is accepted. -/
def planOf (before after : ZoneState) (current : Zone) : RollbackPlan where
  changes := (planKeys before.rrsets after.rrsets).filterMap
    (changeAt before.rrsets current.rrsets)
  kindChangeRequired := decide (current.kind ≠ before.kind)

/-- The keys of a plan that has been found, one by one. -/
theorem mapM_restoreChange_eq_ok_iff {before after : List Rrset}
    {keys : List String} {changes : List (Option Change)} :
    keys.mapM (restoreChange before after observed) = .ok changes
      ↔ (∀ key ∈ keys, stateAt observed key = stateAt before key
          ∨ stateAt observed key = stateAt after key)
        ∧ changes = keys.map (changeAt before observed) := by
  rw [mapM_eq_ok_iff]
  have hsplit : (fun key change =>
      restoreChange before after observed key = .ok change)
      = fun key change => (stateAt observed key = stateAt before key
          ∨ stateAt observed key = stateAt after key)
        ∧ change = changeAt before observed key := by
    funext key change
    exact propext restoreChange_eq_ok_iff
  rw [hsplit, forall₂_eq_map]

/-- A zone is accepted exactly where everything in it is as one of the
snapshots has it, and then there is one plan. -/
theorem rollbackSnapshotPlan_eq_ok_iff {plan : RollbackPlan} :
    rollbackSnapshotPlan (some current) before after = .ok plan
      ↔ Restorable before after current ∧ plan = planOf before after current := by
  unfold rollbackSnapshotPlan
  dsimp only
  constructor
  · intro hok
    split at hok
    · cases hok
    · rename_i htopology
      simp only [not_or, ne_eq, not_not] at htopology
      obtain ⟨hzone, hid, hdnssec, hcurrent, hsigned⟩ := htopology
      obtain ⟨required, hkind, hrest⟩ := bind_eq_ok.mp hok
      obtain ⟨howned, rfl⟩ := restoreKind_eq_ok_iff.mp hkind
      split at hrest
      · cases hrest
      · rename_i hstray
        obtain ⟨changes, hchanges, hplan⟩ := bind_eq_ok.mp hrest
        obtain ⟨haccepted, rfl⟩ := mapM_restoreChange_eq_ok_iff.mp hchanges
        obtain rfl := Except.ok.inj hplan
        refine ⟨⟨hzone, ⟨hid, hcurrent⟩, ⟨hdnssec, hsigned⟩, howned, ?_⟩, ?_⟩
        · intro key
          by_cases hkey : key ∈ planKeys before.rrsets after.rrsets
          · exact haccepted key hkey
          · left
            rw [(stateAt_of_notMem hkey).1]
            unfold stateAt
            rw [Option.map_eq_none_iff, get_eq_none]
            intro rrset hrrset hsame
            apply hstray
            rw [List.any_eq_true]
            refine ⟨rrset, hrrset, ?_⟩
            rw [hsame]
            obtain ⟨hbefore, hafter⟩ := stateAt_of_notMem hkey
            unfold stateAt at hbefore hafter
            rw [Option.map_eq_none_iff] at hbefore hafter
            rw [hbefore, hafter]
            rfl
        · unfold planOf
          rw [List.filterMap_map]
          rfl
  · rintro ⟨hrestorable, rfl⟩
    obtain ⟨hzone, ⟨hid, hcurrent⟩, ⟨hdnssec, hsigned⟩, hkind, hrrsets⟩ :=
      hrestorable
    rw [if_neg (by simp only [not_or, ne_eq, not_not]; exact
      ⟨hzone, hid, hdnssec, hcurrent, hsigned⟩),
      restoreKind_eq_ok_iff.mpr ⟨hkind, rfl⟩]
    show (if _ then _ else _) = _
    have hstray : current.rrsets.any (fun rrset =>
        (get rrsetKey before.rrsets (rrsetKey rrset)).isNone
          && (get rrsetKey after.rrsets (rrsetKey rrset)).isNone) ≠ true := by
      rw [ne_eq, List.any_eq_true]
      rintro ⟨rrset, hrrset, hnone⟩
      rw [Bool.and_eq_true, Option.isNone_iff_eq_none,
        Option.isNone_iff_eq_none] at hnone
      have hsome : stateAt current.rrsets (rrsetKey rrset) ≠ none := by
        unfold stateAt
        rw [ne_eq, Option.map_eq_none_iff, get_eq_none]
        exact fun hall => hall rrset hrrset rfl
      have hstates := hrrsets (rrsetKey rrset)
      unfold stateAt at hstates hsome
      rw [hnone.1, hnone.2] at hstates
      rcases hstates with hstate | hstate <;> exact hsome hstate
    rw [if_neg hstray]
    have hall : (planKeys before.rrsets after.rrsets).mapM
        (restoreChange before.rrsets after.rrsets current.rrsets) = .ok _ :=
      mapM_restoreChange_eq_ok_iff.mpr ⟨fun key _ => hrrsets key, rfl⟩
    show ((planKeys before.rrsets after.rrsets).mapM _ >>= _) = _
    rw [hall]
    show Except.ok _ = Except.ok _
    unfold planOf
    rw [List.filterMap_map]
    rfl

-- ====== restore

/-- What a key is left with. -/
theorem stateAt_restored (hbefore : Checked before) (hafter : Checked after)
    (hrestorable : Restorable before after (readZone normalizedZone hosted))
    (key : String) :
    stateAt (restoredZone normalizedZone hosted before
        (planOf before after (readZone normalizedZone hosted))).rrsets key
      = stateAt before.rrsets key := by
  have hkeys := nodup_planKeys hbefore.distinct hafter.distinct
  have hof : ∀ key' ∈ planKeys before.rrsets after.rrsets, ∀ change,
      changeAt before.rrsets (readZone normalizedZone hosted).rrsets key'
        = some change → change.key rrsetKey = id key' :=
    fun _ _ _ hchange => key_changeAt hchange
  have hmapId : ((planKeys before.rrsets after.rrsets).map id).Nodup := by
    rwa [List.map_id]
  have hnodup := nodup_filterMap hof hmapId
  have hread : get rrsetKey (readZone normalizedZone hosted).rrsets key
      = (get rrsetKey hosted.rrsets key).map normalizedExistingRrset :=
    get_map rrsetKey_normalized hosted.rrsets key
  unfold stateAt restoredZone planOf
  dsimp only
  rw [get_map rrsetKey_normalized, get_patch hnodup, get_filterMap hof hmapId]
  by_cases hkey : key ∈ planKeys before.rrsets after.rrsets
  · have hself : get id (planKeys before.rrsets after.rrsets) key = some key :=
      get_of_mem hmapId hkey
    rw [hself, Option.bind_some]
    by_cases hsame : stateAt (readZone normalizedZone hosted).rrsets key
        = stateAt before.rrsets key
    · have hnone : changeAt before.rrsets
          (readZone normalizedZone hosted).rrsets key = none := if_pos hsame
      rw [hnone, Option.map_none, Option.getD_none, ← hread]
      exact hsame
    · unfold changeAt
      rw [if_neg hsame, Option.map_some, Option.getD_some]
      cases hget : get rrsetKey before.rrsets key with
      | none => rfl
      | some previous =>
          have hnormal := hbefore.normal previous (mem_of_get hget)
          show some (rrsetState (normalizedExistingRrset previous)) = _
          rw [hnormal]
          rfl
  · have hself : get id (planKeys before.rrsets after.rrsets) key = none :=
      get_eq_none.mpr fun key' hkey' hsame => hkey (hsame ▸ hkey')
    rw [hself, Option.bind_none, Option.map_none, Option.getD_none, ← hread]
    obtain ⟨hnone, hnone'⟩ := stateAt_of_notMem hkey
    have hstate := hrestorable.rrsets key
    rw [hnone, hnone', or_self] at hstate
    exact hstate.trans hnone.symm

/-- What the changes of an accepted plan leave is the zone before. -/
theorem matches_restored (hbefore : Checked before) (hafter : Checked after)
    (hrestorable : Restorable before after (readZone normalizedZone hosted)) :
    Matches before (restoredZone normalizedZone hosted before
      (planOf before after (readZone normalizedZone hosted))) := by
  refine ⟨hrestorable.id.2, ?_, hrestorable.dnssec.2,
    stateAt_restored hbefore hafter hrestorable⟩
  by_cases hkind : (readZone normalizedZone hosted).kind = before.kind
  · have hkeep : (planOf before after
        (readZone normalizedZone hosted)).kindChangeRequired = false := by
      simp [planOf, hkind]
    show (if (planOf before after
      (readZone normalizedZone hosted)).kindChangeRequired then _ else _) = _
    rw [hkeep, if_neg (by decide)]
    exact hkind
  · have hgo : (planOf before after
        (readZone normalizedZone hosted)).kindChangeRequired = true := by
      simp [planOf, hkind]
    show (if (planOf before after
      (readZone normalizedZone hosted)).kindChangeRequired then _ else _) = _
    rw [hgo, if_pos rfl]

/-- There is nothing left to do for a zone that is as it was before. -/
theorem planOf_of_matches (h : Matches before current) :
    (planOf before after current).changes = []
      ∧ (planOf before after current).satisfied = true := by
  have hchanges : (planOf before after current).changes = [] := by
    unfold planOf
    rw [List.filterMap_eq_nil_iff]
    exact fun key _ => if_pos (h.rrsets key)
  have hkind : (planOf before after current).kindChangeRequired = false := by
    simp [planOf, h.kind]
  refine ⟨hchanges, ?_⟩
  unfold RollbackPlan.satisfied
  rw [hchanges, hkind]
  rfl

theorem restorable_of_matches (h : Matches before current)
    (hzone : before.zoneName = after.zoneName) (hid : before.id = after.id)
    (hdnssec : before.dnssec = after.dnssec) :
    Restorable before after current where
  zoneName := hzone
  id := ⟨hid, h.id⟩
  dnssec := ⟨hdnssec, h.dnssec⟩
  kind := .inl h.kind
  rrsets := fun key => .inl (h.rrsets key)

/-- A zone is accepted exactly where its identity, its kind and each of its
RRsets are as one of the snapshots has them; the changes planned for it leave
exactly the zone before, and there is nothing to plan for that. -/
theorem restore_exact (h : Host) (normalizedZone : String)
    (beforeValue afterValue before after : ZoneState) (hosted : Hosted)
    (hbefore : normalizeRollbackSnapshot h beforeValue normalizedZone
      = .ok before)
    (hafter : normalizeRollbackSnapshot h afterValue normalizedZone
      = .ok after) :
    ((∃ plan, rollbackSnapshotPlan (some (readZone normalizedZone hosted))
        before after = .ok plan)
      ↔ Restorable before after (readZone normalizedZone hosted))
    ∧ ∀ plan, rollbackSnapshotPlan (some (readZone normalizedZone hosted))
        before after = .ok plan →
      Matches before (restoredZone normalizedZone hosted before plan)
      ∧ ∃ again, rollbackSnapshotPlan
          (some (restoredZone normalizedZone hosted before plan)) before after
            = .ok again
        ∧ again.changes = [] ∧ again.satisfied = true := by
  have hcb := checked_of_normalizeRollbackSnapshot hbefore
  have hca := checked_of_normalizeRollbackSnapshot hafter
  constructor
  · constructor
    · rintro ⟨plan, hplan⟩
      exact (rollbackSnapshotPlan_eq_ok_iff.mp hplan).1
    · intro hrestorable
      exact ⟨_, rollbackSnapshotPlan_eq_ok_iff.mpr ⟨hrestorable, rfl⟩⟩
  · intro plan hplan
    obtain ⟨hrestorable, rfl⟩ := rollbackSnapshotPlan_eq_ok_iff.mp hplan
    have hmatches := matches_restored hcb hca hrestorable
    refine ⟨hmatches, _, rollbackSnapshotPlan_eq_ok_iff.mpr
      ⟨restorable_of_matches hmatches hrestorable.zoneName hrestorable.id.1
        hrestorable.dnssec.1, rfl⟩, planOf_of_matches hmatches⟩

-- ====== samples

def sampleRrset (name type content : String) : Rrset where
  name := name
  type := type
  ttl := some 300
  records := [⟨content, false⟩]
  comments := []

def sampleSoa (serial : String) : Rrset :=
  sampleRrset "example.org." "SOA" ("ns hostmaster " ++ serial)

def sampleNote : Rrset :=
  sampleRrset "note.example.org." "TXT" "\"kept\""

def sampleState (kind : String) (rrsets : List Rrset) : ZoneState where
  zoneName := "example.org"
  id := "example.org."
  kind := some kind
  dnssec := false
  rrsets := rrsets

theorem unidentified : (none : Option String) ≠ some "" := by decide

def sampleHosted (kind : String) (rrsets : List Rrset)
    (h : rrsets = [sampleSoa "1"] ∨ rrsets = [sampleSoa "2", sampleNote]) :
    Hosted where
  id := none
  kind := some kind
  dnssec := false
  notifiedSerial := none
  rrsets := rrsets
  identified := unidentified
  distinct := by rcases h with rfl | rfl <;> decide +kernel
  named := by
    intro rrset hrrset
    have hname : rrset.name = "example.org."
        ∨ rrset.name = "note.example.org." := by
      rcases h with rfl | rfl <;>
        (simp only [List.mem_cons, List.not_mem_nil, or_false] at hrrset
         grind [sampleSoa, sampleNote, sampleRrset])
    rcases hname with hname | hname <;> rw [hname] <;>
      exact ⟨Text.forall_mem_of_all (by decide), by decide⟩
  typed := by
    intro rrset hrrset
    have htype : rrset.type = "SOA" ∨ rrset.type = "TXT" := by
      rcases h with rfl | rfl <;>
        (simp only [List.mem_cons, List.not_mem_nil, or_false] at hrrset
         grind [sampleSoa, sampleNote, sampleRrset])
    rcases htype with htype | htype <;> rw [htype]
    · exact isType_text .soa
    · exact isType_text .txt

/-- A zone whose kind went back while its changes did not: both records are
as the operation left them, and one of them is rewritten, the other
deleted. -/
theorem restore_exact_half_done :
    ∃ plan, rollbackSnapshotPlan (some (readZone "example.org"
          (sampleHosted "Native" [sampleSoa "2", sampleNote] (.inr rfl))))
        (sampleState "Native" [sampleSoa "1"])
        (sampleState "Primary" [sampleSoa "2", sampleNote]) = .ok plan
      ∧ plan.changes = [.replace (sampleSoa "1"), .delete (rrsetKey sampleNote)]
      ∧ Matches (sampleState "Native" [sampleSoa "1"])
          (restoredZone "example.org"
            (sampleHosted "Native" [sampleSoa "2", sampleNote] (.inr rfl))
            (sampleState "Native" [sampleSoa "1"]) plan) := by
  have hplan : rollbackSnapshotPlan (some (readZone "example.org"
        (sampleHosted "Native" [sampleSoa "2", sampleNote] (.inr rfl))))
      (sampleState "Native" [sampleSoa "1"])
      (sampleState "Primary" [sampleSoa "2", sampleNote])
      = .ok ⟨[.replace (sampleSoa "1"), .delete (rrsetKey sampleNote)],
          false⟩ := by
    decide +kernel
  exact ⟨_, hplan, rfl, ((restore_exact sampleHost "example.org"
    (sampleState "Native" [sampleSoa "1"])
    (sampleState "Primary" [sampleSoa "2", sampleNote])
    (sampleState "Native" [sampleSoa "1"])
    (sampleState "Primary" [sampleSoa "2", sampleNote])
    (sampleHosted "Native" [sampleSoa "2", sampleNote] (.inr rfl))
    (by decide +kernel) (by decide +kernel)).2 _ hplan).1⟩

/-- Identity, DNSSEC and every RRset are those of both snapshots, and the
zone is refused for its kind. -/
theorem foreign_kind_refused :
    let snapshot := sampleState "Native" [sampleSoa "1"]
    let current := readZone "example.org"
      (sampleHosted "Slave" [sampleSoa "1"] (.inl rfl))
    normalizeRollbackSnapshot sampleHost snapshot "example.org" = .ok snapshot
      ∧ current.id = snapshot.id ∧ current.dnssec = snapshot.dnssec
      ∧ current.rrsets = snapshot.rrsets
      ∧ ¬∃ plan, rollbackSnapshotPlan (some current) snapshot snapshot
          = .ok plan := by
  intro snapshot current
  refine ⟨by decide +kernel, by decide +kernel, by decide +kernel,
    by decide +kernel, ?_⟩
  have hrefused : rollbackSnapshotPlan (some current) snapshot snapshot
      = .error (restoreDrift
        "PowerDNS zone kind changed outside the reapply operation") := by
    decide +kernel
  rintro ⟨plan, hplan⟩
  rw [hrefused] at hplan
  cases hplan

example : keyText "a" "A" ≠ keyText "b" "B" := by decide +kernel

end Yunpanel.Dns.Restore
