/-
Calls on the RRsets of one zone by hand, all at once.

What no order of requests can break is that managed RRsets stay what they
were, the serial in the SOA record aside (`Kept`): a plan was made where its
key was not managed, nobody makes an RRset managed, and whatever a `PATCH`
writes in the place of the SOA record differs from the first one in its
serial only (`Fits`).

That a serial is used once, and that a change is there when its call returns,
does hang on the order (`Orderly`): a `PATCH` has to reach the zone under the
serial its call has read. Then each `PATCH` raises the serial, so no two of
them start from the same one, and a call that is confirmed is confirmed of
its own (`History`).
-/
import Yunpanel.Dns.Proofs.Serial
import Yunpanel.Dns.Proofs.Reapply
import Yunpanel.Dns.Manual

namespace Yunpanel.Dns.Manual

open Lib Lib.Keyed Lib.Result

variable {h : Host} {zone : Owner}

-- ====== statements

/-- What a zone says of a key. -/
def there (zone : Owner) (hosted : Hosted) (k : String) : Option Rrset :=
  get rrsetKey (readZone zone.text hosted).rrsets k

def serialIn (zone : Owner) (hosted : Hosted) : Option Nat :=
  (readZone zone.text hosted).serial

/-- The change of a plan is in the zone. -/
def Present (h : Host) (zone : Owner) (hosted : Hosted) (plan : Plan) : Prop :=
  match plan.wanted with
  | some wanted => ∃ rrset, there zone hosted plan.key = some rrset
      ∧ managed h rrset = none ∧ sameRecords rrset wanted = true
  | none => there zone hosted plan.key = none

/-- The words of a SOA record. -/
def soaWords (content : String) : List (List Char) :=
  splitSpaces (Text.trim content.toList)

/-- A SOA record and another that has a word of its own for the serial. -/
structure SameButSerial (before after : Rrset) : Prop where
  name : after.name = before.name
  type : after.type = before.type
  ttl : after.ttl = before.ttl
  comments : after.comments = before.comments
  records : ∃ old new serial,
    before.records = [{ content := old, disabled := false }]
      ∧ after.records = [{ content := new, disabled := false }]
      ∧ soaWords new = (soaWords old).set 2 serial

/-- The managed RRsets of a zone are those it had, the serial aside. -/
def Kept (h : Host) (zone : Owner) (start hosted : Hosted) : Prop :=
  ∀ k, match (there zone start k).filter fun rrset => (managed h rrset).isSome with
    | some before => ∃ after, there zone hosted k = some after
        ∧ (after = before
          ∨ (k = soaKey zone.text ∧ SameButSerial before after))
    | none => ∀ after, there zone hosted k = some after →
        managed h after = none

/-- An answer in order: a `PATCH` reaches the zone under the serial its call
has read, and changes nothing that another call is about to report; a call
whose `PATCH` was lost does not find its change made by another. -/
def InOrder (h : Host) (zone : Owner) (f : Flight Hosted Stage) (id : Nat)
    (answer : Answer) : Stage → Prop
  | .patching _ plan => answer ≠ .failed →
      serialIn zone f.shared = some plan.base
        ∧ ∀ other waiting step, other ≠ id →
          f.stage other = some (.announcing waiting step) →
          waiting.key ∉ plan.changes.map (Change.key rrsetKey)
  | .verifying _ plan landed _ => answer = .answered → landed = false →
      plan.confirmed h (readZone zone.text f.shared) = false
  | _ => True

def Orderly (h : Host) (zone : Owner) (f : Flight Hosted Stage) :
    Flight.Event Call Answer Empty → Prop
  | .answer id answer => ∀ stage, f.stage id = some stage →
      InOrder h zone f id answer stage
  | _ => True

/-- What calls on one zone do together. -/
structure StayApart (h : Host) (zone : Owner) (start : Hosted)
    (events : List (Flight.Event Call Answer Empty)) : Prop where
  single : ∀ id id' plan plan',
    (id, Note.changed plan)
      ∈ (protocol h zone.text).notes (Flight.fresh start) events →
    (id', Note.changed plan')
      ∈ (protocol h zone.text).notes (Flight.fresh start) events →
    plan.base = plan'.base → id = id'
  present : ∀ x ∈ (protocol h zone.text).machine.steps (Flight.fresh start) events,
    ∀ id plan, (id, Note.changed plan)
      ∈ (protocol h zone.text).machine.answer x.1 x.2 →
    Present h zone ((protocol h zone.text).machine.next x.1 x.2).shared plan
  kept : ∀ f ∈ (protocol h zone.text).machine.states (Flight.fresh start) events,
    Kept h zone start f.shared

-- ====== plans

/-- What a plan says of the zone it was made from. -/
structure Prepared (h : Host) (zone : Owner) (hosted : Hosted) (plan : Plan) :
    Prop where
  serial : serialIn zone hosted = some plan.base
  next : plan.serial = plan.base + 1
  max : plan.serial ≤ 4294967295
  unmanaged : ∀ rrset, there zone hosted plan.key = some rrset →
    managed h rrset = none
  wanted : ∀ rrset, plan.wanted = some rrset → Proper rrset
    ∧ normalizedExistingRrset rrset = rrset ∧ rrsetKey rrset = plan.key
    ∧ managed h rrset = none
  soa : ∃ current content,
    there zone hosted (soaKey zone.text) = some current
      ∧ current.records = [{ content := content, disabled := false }]
      ∧ (soaWords content).length = 7
      ∧ plan.soa = { current with
          type := "SOA"
          records := [{
            content := String.ofList
              (spaced ((soaWords content).set 2 (decimal plan.serial)))
            disabled := false }] }

theorem find?_isSoa (hosted : Hosted) :
    (readZone zone.text hosted).rrsets.find? (isSoa (readZone zone.text hosted))
      = there zone hosted (soaKey zone.text) := by
  unfold there
  rw [← find?_soa (fun rrset hrrset => (normal_readZone hrrset).1)
    (fun rrset hrrset => (normal_readZone hrrset).2)]
  congr 1
  funext entry
  show (entry.name = lowerText (fqdnText zone.text) && entry.type = "SOA") = _
  rw [lowerText_fqdnText]
  simp

variable {hosted : Hosted} {stage : Stage}

theorem bumpSoaRrset_eq_ok {serial : Nat} {soa : Rrset}
    (hbump : bumpSoaRrset (readZone zone.text hosted) = .ok (serial, soa)) :
    ∃ observed current content, serialIn zone hosted = some observed
      ∧ serial = observed + 1 ∧ serial ≤ 4294967295
      ∧ there zone hosted (soaKey zone.text) = some current
      ∧ current.records = [{ content := content, disabled := false }]
      ∧ (soaWords content).length = 7
      ∧ soa = { current with
          type := "SOA"
          records := [{
            content := String.ofList
              (spaced ((soaWords content).set 2 (decimal serial)))
            disabled := false }] } := by
  unfold bumpSoaRrset at hbump
  rw [find?_isSoa] at hbump
  cases hcurrent : there zone hosted (soaKey zone.text) with
  | none =>
      rw [hcurrent] at hbump
      cases hbump
  | some current =>
      rw [hcurrent] at hbump
      dsimp only at hbump
      split at hbump
      · rename_i content hrecords
        obtain ⟨hlength, hbump⟩ := guard_eq_ok.mp hbump
        split at hbump
        · cases hbump
        · rename_i observed hobserved
          obtain ⟨hserial, -⟩ := Option.filter_eq_some_iff.mp hobserved
          obtain ⟨next, hnext, hbump⟩ := bind_eq_ok.mp hbump
          obtain ⟨rfl, rfl⟩ := Prod.mk.inj (Except.ok.inj hbump)
          unfold nextSerial at hnext
          obtain ⟨hrange, hnext⟩ := guard_eq_ok.mp hnext
          have hvalue := Except.ok.inj hnext
          unfold MAX_SERIAL at hrange
          exact ⟨observed, current, content, hserial, hvalue.symm, by omega,
            rfl, hrecords, not_not.mp hlength, rfl⟩
      · cases hbump

theorem assertManual_eq_ok {current : Option Rrset} {u : Unit}
    (hok : assertManual h current = .ok u) :
    ∀ rrset, current = some rrset → managed h rrset = none := by
  rintro rrset rfl
  unfold assertManual at hok
  rw [Option.bind_some] at hok
  cases hmanaged : managed h rrset with
  | none => rfl
  | some there =>
      rw [hmanaged] at hok
      cases hok

variable {rrset : Rrset} {answer : Answer}
  {result : Hosted × Option Stage × List Note}

/-- What a caller wants has no comments, so it is not managed. -/
theorem desiredRrset_eq_ok {record : ManualRecord}
    (hok : desiredRrset record = .ok rrset) :
    Proper rrset ∧ normalizedExistingRrset rrset = rrset
      ∧ rrsetKey rrset = (Request.apply record).key
      ∧ managed h rrset = none := by
  obtain ⟨records, -, hrrset⟩ := bind_eq_ok.mp hok
  obtain rfl := Except.ok.inj hrrset
  refine ⟨⟨isName_fqdnText record.owner, isType_text record.type⟩, ?_, rfl, rfl⟩
  unfold normalizedExistingRrset
  dsimp only
  rw [lowerText_fqdnText, (isType_text record.type).upperText]

theorem prepare_eq_ok {call : Call} {plan : Plan}
    (hprepare : prepare h (readZone zone.text hosted) call = .ok (some plan)) :
    Prepared h zone hosted plan := by
  obtain ⟨u, hserial, hprepare⟩ := bind_eq_ok.mp hprepare
  have hexpected : serialIn zone hosted = some call.expectedSerial := by
    unfold assertExpectedSerial at hserial
    exact not_not.mp (guard_eq_ok.mp hserial).1
  dsimp only at hprepare
  have hplan : ∀ (wanted : Option Rrset) (soa : Nat × Rrset),
      bumpSoaRrset (readZone zone.text hosted) = .ok soa →
      (∀ rrset, there zone hosted call.request.key = some rrset →
        managed h rrset = none) →
      (∀ rrset, wanted = some rrset → Proper rrset
        ∧ normalizedExistingRrset rrset = rrset
        ∧ rrsetKey rrset = call.request.key ∧ managed h rrset = none) →
      Prepared h zone hosted {
        key := call.request.key
        wanted := wanted
        base := call.expectedSerial
        serial := soa.1
        soa := soa.2 } := by
    rintro wanted ⟨serial, soa⟩ hbump hmanual hwanted
    obtain ⟨observed, current, content, hobserved, hnext, hmax, hcurrent,
      hrecords, hlength, hsoa⟩ := bumpSoaRrset_eq_ok hbump
    rw [hexpected] at hobserved
    obtain rfl := Option.some.inj hobserved
    exact {
      serial := hexpected
      next := hnext
      max := hmax
      unmanaged := hmanual
      wanted := hwanted
      soa := ⟨current, content, hcurrent, hrecords, hlength, hsoa⟩ }
  cases hrequest : call.request with
  | apply record =>
      rw [hrequest] at hprepare
      dsimp only at hprepare
      obtain ⟨_, hmanual, hprepare⟩ := bind_eq_ok.mp hprepare
      obtain ⟨-, -, hprepare⟩ := bind_eq_ok.mp hprepare
      obtain ⟨wanted, hwanted, hprepare⟩ := bind_eq_ok.mp hprepare
      split at hprepare
      · cases hprepare
      · obtain ⟨soa, hsoa, hprepare⟩ := bind_eq_ok.mp hprepare
        obtain rfl := Option.some.inj (Except.ok.inj hprepare)
        rw [← hrequest] at hmanual ⊢
        refine hplan (some wanted) soa hsoa (assertManual_eq_ok hmanual) ?_
        intro rrset hrrset
        obtain rfl := Option.some.inj hrrset
        rw [hrequest]
        exact desiredRrset_eq_ok hwanted
  | remove owner type =>
      rw [hrequest] at hprepare
      dsimp only at hprepare
      split at hprepare
      · cases hprepare
      · obtain ⟨_, hmanual, hprepare⟩ := bind_eq_ok.mp hprepare
        obtain ⟨soa, hsoa, hprepare⟩ := bind_eq_ok.mp hprepare
        obtain rfl := Option.some.inj (Except.ok.inj hprepare)
        rw [← hrequest] at hmanual ⊢
        refine hplan none soa hsoa (assertManual_eq_ok hmanual) ?_
        intro rrset hrrset
        cases hrrset

/-- What a plan is wherever it lands: the serial it writes, under a key that
was not managed and in the place of a SOA record it keeps but for that. -/
structure Fits (h : Host) (zone : Owner) (start : Hosted) (plan : Plan) :
    Prop where
  next : plan.serial = plan.base + 1
  serial : serialOf (some plan.soa) = some plan.serial
  proper : Proper plan.soa ∧ normalizedExistingRrset plan.soa = plan.soa
  key : rrsetKey plan.soa = soaKey zone.text
  wanted : ∀ rrset, plan.wanted = some rrset → Proper rrset
    ∧ normalizedExistingRrset rrset = rrset ∧ rrsetKey rrset = plan.key
    ∧ managed h rrset = none
  unmanaged : ∀ rrset, there zone start plan.key = some rrset →
    managed h rrset = none
  soa : match (there zone start (soaKey zone.text)).filter
      fun rrset => (managed h rrset).isSome with
    | some before => SameButSerial before plan.soa
    | none => managed h plan.soa = none

theorem SameButSerial.managed {before after : Rrset}
    (hsame : SameButSerial before after) :
    managed h after = managed h before := by
  unfold Dns.managed
  rw [hsame.comments]

theorem kept_refl (start : Hosted) : Kept h zone start start := by
  intro k
  cases hfilter : (there zone start k).filter
      fun rrset => (managed h rrset).isSome with
  | some before => exact ⟨before, (Option.filter_eq_some_iff.mp hfilter).1, .inl rfl⟩
  | none =>
      intro after hafter
      rw [hafter, Option.filter_some] at hfilter
      cases hmanaged : managed h after with
      | none => rfl
      | some there =>
          rw [hmanaged] at hfilter
          cases hfilter

theorem isType_soa : IsType "SOA" := isType_text .soa

/-- What is at a key of a zone has that key, a name and a type. -/
theorem proper_there {k : String}
    (hthere : there zone hosted k = some rrset) :
    Proper rrset ∧ normalizedExistingRrset rrset = rrset ∧ rrsetKey rrset = k := by
  obtain ⟨hproper, hnormal⟩ := normal_readZone (mem_of_get hthere)
  exact ⟨hproper, hnormal, key_of_get hthere⟩

/-- The words of the next SOA record are those of the last, the serial
aside. -/
theorem soaWords_next {content : String} {n : Nat}
    (hlength : (soaWords content).length = 7) (hn : n ≤ 4294967295) :
    soaWords (String.ofList (spaced ((soaWords content).set 2 (decimal n))))
        = (soaWords content).set 2 (decimal n)
      ∧ ∀ w ∈ (soaWords content).set 2 (decimal n), Word w := by
  have hne : Text.trim content.toList ≠ [] := by
    intro hnil
    unfold soaWords at hlength
    rw [hnil, splitSpaces, List.length_singleton] at hlength
    omega
  have hwords : ∀ w ∈ (soaWords content).set 2 (decimal n), Word w := by
    intro w hw
    rcases List.mem_or_eq_of_mem_set hw with hw | rfl
    · exact words_of_trim hne w hw
    · exact (part_decimal (by omega)).word
  have hset : (soaWords content).set 2 (decimal n) ≠ [] := by
    intro hnil
    have hlen := congrArg List.length hnil
    rw [List.length_set, hlength, List.length_nil] at hlen
    omega
  refine ⟨?_, hwords⟩
  show splitSpaces (Text.trim (String.ofList _).toList) = _
  rw [String.toList_ofList, trim_spaced hwords, splitSpaces_spaced hset hwords]

/-- A plan made of a zone in which the managed RRsets are kept fits. -/
theorem fits_of_prepared {start : Hosted} {plan : Plan}
    (hkept : Kept h zone start hosted) (hp : Prepared h zone hosted plan) :
    Fits h zone start plan := by
  obtain ⟨current, content, hcurrent, hrecords, hlength, hsoa⟩ := hp.soa
  obtain ⟨hproper, hnormal, hkey⟩ := proper_there hcurrent
  obtain ⟨hname, htype⟩ := keyText_inj hproper.name (isName_fqdnText zone) hkey
  have hmax := hp.max
  have hpos : 0 < plan.serial := by
    rw [hp.next]
    omega
  obtain ⟨hwords, hall⟩ := soaWords_next (n := plan.serial) hlength hmax
  have hsoaType : current.type = "SOA" := by
    rw [← hnormal]
    exact htype.trans isType_soa.upperText
  have hsame : SameButSerial current plan.soa := by
    rw [hsoa]
    exact {
      name := rfl
      type := hsoaType.symm
      ttl := rfl
      comments := rfl
      records := ⟨content, _, decimal plan.serial, hrecords, rfl, hwords⟩ }
  refine {
    next := hp.next
    serial := ?_
    proper := ?_
    key := ?_
    wanted := hp.wanted
    unmanaged := ?_
    soa := ?_ }
  · have hentry : plan.soa.records = [{
        content := String.ofList
          (spaced ((soaWords content).set 2 (decimal plan.serial)))
        disabled := false }] := by
      rw [hsoa]
    refine serialOf_spaced hentry hall ?_ hpos hmax
    rw [List.getElem?_set_self (by omega)]
  · constructor
    · exact ⟨hsame.name ▸ hproper.name, hsame.type ▸ hproper.type⟩
    · have hsplit := hnormal
      unfold normalizedExistingRrset at hsplit ⊢
      rw [Rrset.mk.injEq] at hsplit ⊢
      rw [hsame.name, hsame.type]
      exact ⟨hsplit.1, hsplit.2.1, rfl, rfl, rfl⟩
  · unfold rrsetKey
    rw [hsame.name, hsame.type]
    exact hkey
  · intro before hbefore
    have hk := hkept plan.key
    rw [hbefore, Option.filter_some] at hk
    cases hmanaged : managed h before with
    | none => rfl
    | some metadata =>
        rw [hmanaged, if_pos Option.isSome_some] at hk
        obtain ⟨after, hafter, hsame'⟩ := hk
        have hnone := hp.unmanaged after hafter
        rcases hsame' with rfl | ⟨-, hsame'⟩
        · rw [hmanaged] at hnone
          cases hnone
        · rw [hsame'.managed, hmanaged] at hnone
          cases hnone
  · have hk := hkept (soaKey zone.text)
    split
    · rename_i before hbefore
      rw [hbefore] at hk
      obtain ⟨after, hafter, hsame'⟩ := hk
      rw [hcurrent] at hafter
      obtain rfl := Option.some.inj hafter
      rcases hsame' with rfl | ⟨-, hsame'⟩
      · exact hsame
      · obtain ⟨old, new, serial, hold, hnew, hset⟩ := hsame'.records
        rw [hrecords] at hnew
        have hcontent : content = new := by
          have hentry := (List.cons.inj hnew).1
          exact congrArg Entry.content hentry
        exact {
          name := hsame.name.trans hsame'.name
          type := hsame.type.trans hsame'.type
          ttl := hsame.ttl.trans hsame'.ttl
          comments := hsame.comments.trans hsame'.comments
          records := ⟨old, _, decimal plan.serial, hold, by rw [hsoa], by
            rw [hwords, hcontent, hset, List.set_set]⟩ }
    · rename_i hbefore
      rw [hbefore] at hk
      rw [hsame.managed]
      exact hk current hcurrent

-- ====== landing

/-- A `PATCH` of proper RRsets is carried out. -/
theorem patched_patch (hosted : Hosted) {changes : List Change}
    (hproper : ∀ rrset, .replace rrset ∈ changes → Proper rrset) :
    Patched hosted changes (hosted.patch changes) := by
  have hall : ∀ rrset ∈ patch rrsetKey hosted.rrsets changes,
      IsName rrset.name ∧ IsType rrset.type := by
    intro rrset hrrset
    rcases mem_patch hrrset with hmem | hmem
    · exact ⟨hosted.named rrset hmem, hosted.typed rrset hmem⟩
    · exact ⟨(hproper rrset hmem).name, (hproper rrset hmem).type⟩
  unfold Hosted.patch
  dsimp only
  rw [dif_pos hall]
  exact ⟨rfl, rfl, rfl, .refl _⟩

/-- A zone after a `PATCH`, key by key. -/
theorem there_patch {start : Hosted} {plan : Plan}
    (hf : Fits h zone start plan) (hosted : Hosted) (k : String) :
    there zone (hosted.patch plan.changes) k
      = if soaKey zone.text = k then some plan.soa
        else if plan.key = k then plan.wanted
        else there zone hosted k := by
  have hproper : ∀ rrset, .replace rrset ∈ plan.changes → Proper rrset := by
    intro rrset hmem
    unfold Plan.changes at hmem
    rcases List.mem_cons.mp hmem with hmem | hmem
    · cases hwanted : plan.wanted with
      | none =>
          rw [hwanted] at hmem
          cases hmem
      | some wanted =>
          rw [hwanted] at hmem
          cases hmem
          exact (hf.wanted rrset hwanted).1
    · cases List.mem_singleton.mp hmem
      exact hf.proper.1
  have hpatched := patched_patch hosted hproper
  unfold there
  rw [get_readZone, get_perm (hosted.patch plan.changes).distinct
    hpatched.rrsets, get_readZone]
  unfold Plan.changes patch
  rw [List.foldl_cons, List.foldl_cons, List.foldl_nil, get_change, get_change]
  show Option.map _ (if rrsetKey plan.soa = k then some plan.soa else _) = _
  rw [hf.key]
  by_cases hsoa : soaKey zone.text = k
  · rw [if_pos hsoa, if_pos hsoa, Option.map_some, hf.proper.2]
  · rw [if_neg hsoa, if_neg hsoa]
    cases hwanted : plan.wanted with
    | none =>
        dsimp only
        show Option.map _ (if plan.key = k then none else _) = _
        by_cases hkey : plan.key = k
        · rw [if_pos hkey, if_pos hkey]
          rfl
        · rw [if_neg hkey, if_neg hkey]
    | some wanted =>
        obtain ⟨-, hnormal, hsame, -⟩ := hf.wanted wanted hwanted
        dsimp only
        show Option.map _ (if rrsetKey wanted = k then some wanted else _) = _
        rw [hsame]
        by_cases hkey : plan.key = k
        · rw [if_pos hkey, if_pos hkey, Option.map_some, hnormal]
        · rw [if_neg hkey, if_neg hkey]

/-- A `PATCH` leaves the zone under the serial of its plan. -/
theorem serialIn_patch {start : Hosted} {plan : Plan}
    (hf : Fits h zone start plan) (hosted : Hosted) :
    serialIn zone (hosted.patch plan.changes) = some plan.serial := by
  have hsoa := there_patch hf hosted (soaKey zone.text)
  rw [if_pos rfl] at hsoa
  unfold serialIn
  rw [serial_eq_serialOf]
  unfold there at hsoa
  rw [hsoa, hf.serial]

/-- Wherever a plan lands, managed RRsets are kept. -/
theorem kept_patch {start : Hosted} {plan : Plan}
    (hkept : Kept h zone start hosted) (hf : Fits h zone start plan) :
    Kept h zone start (hosted.patch plan.changes) := by
  intro k
  have hk := hkept k
  rw [there_patch hf]
  by_cases hsoa : soaKey zone.text = k
  · subst hsoa
    rw [if_pos rfl]
    have hs := hf.soa
    split
    · rename_i before hbefore
      rw [hbefore] at hs
      exact ⟨plan.soa, rfl, .inr ⟨rfl, hs⟩⟩
    · rename_i hbefore
      rw [hbefore] at hs
      intro after hafter
      rw [← Option.some.inj hafter]
      exact hs
  · rw [if_neg hsoa]
    by_cases hkey : plan.key = k
    · subst hkey
      rw [if_pos rfl]
      split
      · rename_i before hbefore
        obtain ⟨hthere, hmanaged⟩ := Option.filter_eq_some_iff.mp hbefore
        rw [hf.unmanaged before hthere] at hmanaged
        cases hmanaged
      · intro after hafter
        exact (hf.wanted after hafter).2.2.2
    · rw [if_neg hkey]
      exact hk

/-- A change stays where nothing is written over it. -/
theorem present_patch {start : Hosted} {plan waiting : Plan}
    (hf : Fits h zone start plan) (hpresent : Present h zone hosted waiting)
    (hapart : waiting.key ∉ plan.changes.map (Change.key rrsetKey)) :
    Present h zone (hosted.patch plan.changes) waiting := by
  have hsoa : soaKey zone.text ≠ waiting.key := by
    intro heq
    apply hapart
    rw [← heq, ← hf.key]
    exact List.mem_map.mpr ⟨.replace plan.soa,
      List.mem_cons_of_mem _ (List.mem_singleton_self _), rfl⟩
  have hkey : plan.key ≠ waiting.key := by
    intro heq
    apply hapart
    rw [← heq]
    refine List.mem_map.mpr ⟨_, List.mem_cons_self, ?_⟩
    cases hwanted : plan.wanted with
    | none => rfl
    | some wanted => exact (hf.wanted wanted hwanted).2.2.1
  have hsame := there_patch hf hosted waiting.key
  rw [if_neg hsoa, if_neg hkey] at hsame
  unfold Present
  rw [hsame]
  exact hpresent

/-- What is confirmed is there. -/
theorem present_of_confirmed {plan : Plan}
    (hconfirmed : plan.confirmed h (readZone zone.text hosted) = true) :
    Present h zone hosted plan ∧ serialIn zone hosted = some plan.serial := by
  unfold Plan.confirmed at hconfirmed
  dsimp only at hconfirmed
  rw [Bool.and_eq_true, beq_iff_eq] at hconfirmed
  refine ⟨?_, hconfirmed.2⟩
  have hverified := hconfirmed.1
  unfold Present
  cases hwanted : plan.wanted with
  | none =>
      rw [hwanted] at hverified
      exact Option.isNone_iff_eq_none.mp hverified
  | some wanted =>
      rw [hwanted] at hverified
      obtain ⟨rrset, hrrset, hsame⟩ := (Option.any_eq_true _ _).mp hverified
      rw [Bool.and_eq_true, Option.isNone_iff_eq_none] at hsame
      exact ⟨rrset, hrrset, hsame.1, hsame.2⟩

-- ====== segments

/-- The plan a call has made. -/
def Stage.plan? : Stage → Option Plan
  | .reading _ => none
  | .warning _ plan _ => some plan
  | .patching _ plan => some plan
  | .verifying _ plan _ _ => some plan
  | .announcing plan _ => some plan

/-- The plan whose `PATCH` a call knows, or need not know, to be applied. -/
def Stage.landed? : Stage → Option Plan
  | .verifying _ plan true _ => some plan
  | .announcing plan _ => some plan
  | _ => none

/-- What one request does to the zone, its call and the history. -/
inductive Turn (h : Host) (zone : Owner) (hosted : Hosted) (stage : Stage)
    (answer : Answer) : Hosted × Option Stage × List Note → Prop
  | ends {note : Note} (hnote : note = .refused ∨ note = .unchanged) :
      Turn h zone hosted stage answer (hosted, none, [note])
  | planned {plan : Plan} {next : Stage}
      (hprepared : Prepared h zone hosted plan) (hplan : next.plan? = some plan)
      (hlanded : next.landed? = none) :
      Turn h zone hosted stage answer (hosted, some next, [])
  | waits {next : Stage} (hplan : next.plan? = stage.plan?)
      (hlanded : next.landed? = stage.landed?)
      (hwaiting : ∀ plan step, next = .announcing plan step →
        ∃ step, stage = .announcing plan step) :
      Turn h zone hosted stage answer (hosted, some next, [])
  | landed {call : Call} {plan : Plan} {failed : Bool}
      (hstage : stage = .patching call plan) (hanswer : answer ≠ .failed) :
      Turn h zone hosted stage answer (hosted.patch plan.changes,
        some (.verifying call plan true failed), [.landed plan])
  | announces {call : Call} {plan : Plan} {landed failed : Bool}
      {step : NotifyStep}
      (hstage : stage = .verifying call plan landed failed)
      (hanswer : answer = .answered)
      (hconfirmed : plan.confirmed h (readZone zone.text hosted) = true) :
      Turn h zone hosted stage answer
        (hosted, some (.announcing plan step), [])
  | returns {call : Call} {plan : Plan} {landed failed : Bool}
      (hstage : stage = .verifying call plan landed failed)
      (hanswer : answer = .answered)
      (hconfirmed : plan.confirmed h (readZone zone.text hosted) = true) :
      Turn h zone hosted stage answer (hosted, none, [.changed plan])
  | finishes {plan : Plan} {step : NotifyStep}
      (hstage : stage = .announcing plan step) :
      Turn h zone hosted stage answer (hosted, none, [.changed plan])

theorem turn_resume (h : Host) (zone : Owner) (hosted : Hosted) (stage : Stage) (answer : Answer) :
    Turn h zone hosted stage answer
      (resume h zone.text hosted stage answer) := by
  have hanswered : ∀ {answer : Answer}, unavailable answer = false →
      answer = .answered := by
    intro answer hanswer
    cases answer <;> first | rfl | cases hanswer
  unfold resume
  cases stage with
  | reading call =>
      dsimp only
      by_cases hun : unavailable answer = true
      · rw [if_pos hun]
        exact .ends (.inl rfl)
      · rw [if_neg hun]
        cases hprepare : prepare h (readZone zone.text hosted) call with
        | error e => exact .ends (.inl rfl)
        | ok prepared =>
            cases prepared with
            | none => exact .ends (.inr rfl)
            | some plan =>
                dsimp only
                refine .planned (prepare_eq_ok hprepare) ?_ ?_
                · split <;> rfl
                · split <;> rfl
  | warning call plan step =>
      dsimp only
      cases notify hosted step answer with
      | none => exact .ends (.inl rfl)
      | some next =>
          cases next with
          | none => exact .waits rfl rfl nofun
          | some step => exact .waits rfl rfl nofun
  | patching call plan =>
      dsimp only
      cases answer with
      | failed => exact .waits rfl rfl nofun
      | answered => exact .landed rfl nofun
      | lost => exact .landed rfl nofun
  | verifying call plan landed failed =>
      dsimp only
      by_cases hun : unavailable answer = true
      · rw [if_pos hun]
        exact .ends (.inl rfl)
      · rw [if_neg hun]
        rw [Bool.not_eq_true] at hun
        by_cases hconfirmed : plan.confirmed h (readZone zone.text hosted) = true
        · rw [if_pos hconfirmed]
          unfold confirmed
          by_cases hnotify : call.notifySecondaries = true
          · rw [if_pos hnotify]
            exact .announces rfl (hanswered hun) hconfirmed
          · rw [if_neg hnotify]
            exact .returns rfl (hanswered hun) hconfirmed
        · rw [if_neg hconfirmed]
          exact .ends (.inl rfl)
  | announcing plan step =>
      dsimp only
      cases notify hosted step answer with
      | none => exact .ends (.inl rfl)
      | some next =>
          cases next with
          | none => exact .finishes rfl
          | some step' =>
              refine .waits rfl rfl fun plan' step' heq => ⟨step, ?_⟩
              rw [Stage.announcing.injEq] at heq
              rw [heq.1]

-- ====== every order

/-- The plan of every stage fits. -/
def Fitting (h : Host) (zone : Owner) (start : Hosted) (stage : Stage) : Prop :=
  ∀ plan, stage.plan? = some plan → Fits h zone start plan

theorem kept_turn {start : Hosted}
    (hturn : Turn h zone hosted stage answer result)
    (hkept : Kept h zone start hosted) (hfits : Fitting h zone start stage) :
    Kept h zone start result.1
      ∧ ∀ next, result.2.1 = some next → Fitting h zone start next := by
  cases hturn with
  | ends hnote => exact ⟨hkept, fun next hnext => absurd hnext (by simp)⟩
  | @planned plan next hprepared hplan hlanded =>
      refine ⟨hkept, fun other hother plan' hplan' => ?_⟩
      obtain rfl := Option.some.inj hother
      rw [hplan] at hplan'
      obtain rfl := Option.some.inj hplan'
      exact fits_of_prepared hkept hprepared
  | @waits next hplan hlanded hwaiting =>
      refine ⟨hkept, fun other hother plan' hplan' => ?_⟩
      obtain rfl := Option.some.inj hother
      exact hfits plan' (hplan ▸ hplan')
  | @landed call plan failed hstage hanswer =>
      subst hstage
      refine ⟨kept_patch hkept (hfits plan rfl), fun other hother plan' hplan' => ?_⟩
      obtain rfl := Option.some.inj hother
      exact hfits plan' hplan'
  | @announces call plan landed failed step hstage hanswer hconfirmed =>
      subst hstage
      refine ⟨hkept, fun other hother plan' hplan' => ?_⟩
      obtain rfl := Option.some.inj hother
      exact hfits plan' hplan'
  | returns hstage hanswer hconfirmed =>
      exact ⟨hkept, fun next hnext => absurd hnext (by simp)⟩
  | finishes hstage =>
      exact ⟨hkept, fun next hnext => absurd hnext (by simp)⟩

theorem keeps_managed (start : Hosted) :
    (protocol h zone.text).Keeps (fun _ _ => True) (Kept h zone start)
      fun _ => Fitting h zone start where
  start := fun f call _ _ plan hplan => by cases hplan
  resume := fun f id answer stage _ _ hkept hfits => by
    obtain ⟨hkept', hnext⟩ :=
      kept_turn (turn_resume h zone f.shared stage answer) hkept hfits
    exact ⟨hkept', hnext, fun other hother => hother⟩
  world := fun f x => x.elim
  restart := fun f _ hkept => hkept

/-- Whatever the calls do, managed RRsets are kept. -/
theorem managed_kept (start : Hosted)
    (events : List (Flight.Event Call Answer Empty)) :
    ∀ f ∈ (protocol h zone.text).machine.states (Flight.fresh start) events,
      Kept h zone start f.shared := by
  intro f hf
  have hall := Machine.forall_mem_states (m := (protocol h zone.text).machine)
    (P := Protocol.Sound (Kept h zone start) fun _ => Fitting h zone start)
    (fun f e hsound => Protocol.sound_next (keeps_managed start) trivial hsound)
    (Protocol.sound_fresh (kept_refl start)) events f hf
  exact hall.shared

-- ====== in order

/-- What is behind an orderly run: the zone is past every serial a `PATCH`
has landed on, and whoever is confirmed was landed. -/
structure History (h : Host) (zone : Owner) (start : Hosted)
    (f : Flight Hosted Stage) (past : List (Nat × Note)) : Prop where
  sound : Protocol.Sound (Kept h zone start)
    (fun _ => Fitting h zone start) f
  below : ∀ id plan, (id, .landed plan) ∈ past →
    ∃ n, serialIn zone f.shared = some n ∧ plan.base < n
  single : ∀ id id' plan plan', (id, Note.landed plan) ∈ past →
    (id', Note.landed plan') ∈ past → plan.base = plan'.base → id = id'
  landed : ∀ id stage plan, f.stage id = some stage →
    stage.landed? = some plan → (id, .landed plan) ∈ past
  waiting : ∀ id plan step, f.stage id = some (.announcing plan step) →
    Present h zone f.shared plan
  changed : ∀ id plan, (id, Note.changed plan) ∈ past →
    (id, .landed plan) ∈ past

theorem history_fresh (start : Hosted) :
    History h zone start (Flight.fresh start) [] := by
  have hnone : ∀ id, (Flight.fresh start : Flight Hosted Stage).stage id = none :=
    fun id => Flight.stage_eq_none rfl id
  exact {
    sound := Protocol.sound_fresh (kept_refl start)
    below := nofun
    single := nofun
    landed := fun id stage plan hstage => by
      rw [hnone] at hstage
      cases hstage
    waiting := fun id plan step hstage => by
      rw [hnone] at hstage
      cases hstage
    changed := nofun }

section orderly

variable {start : Hosted} {f : Flight Hosted Stage} {past : List (Nat × Note)}

variable {notes : List Note}

/-- A call that goes on without writing. -/
theorem history_wait (hpast : History h zone start f past) {id : Nat}
    (hstage : f.stage id = some stage) {next : Option Stage}
    (hfits : ∀ stage', next = some stage' → Fitting h zone start stage')
    (hnext : ∀ stage' plan, next = some stage' → stage'.landed? = some plan →
      (id, Note.landed plan) ∈ past)
    (hwaiting : ∀ plan step, next = some (.announcing plan step) →
      Present h zone f.shared plan)
    (hnotes : ∀ note ∈ notes, (∀ plan, note ≠ .landed plan)
      ∧ ∀ plan, note = .changed plan → (id, Note.landed plan) ∈ past) :
    History h zone start
      { shared := f.shared, calls := f.calls.set id next }
      (past ++ notes.map fun note => (id, note)) := by
  have hold : ∀ other plan,
      (other, Note.landed plan) ∈ past ++ notes.map (fun note => (id, note)) →
      (other, Note.landed plan) ∈ past := by
    intro other plan hmem
    rcases List.mem_append.mp hmem with hmem | hmem
    · exact hmem
    · obtain ⟨note, hnote, heq⟩ := List.mem_map.mp hmem
      exact absurd (Prod.mk.inj heq).2 ((hnotes note hnote).1 plan)
  have hstages : ∀ other stage',
      Flight.stage { shared := f.shared, calls := f.calls.set id next } other
        = some stage' →
      (other = id ∧ next = some stage') ∨ f.stage other = some stage' := by
    intro other stage' hother
    by_cases hid : id = other
    · subst hid
      rw [Flight.stage_set_self hstage] at hother
      exact .inl ⟨rfl, hother⟩
    · rw [Flight.stage_set_ne f hid] at hother
      exact .inr hother
  refine {
    sound := ⟨hpast.sound.shared, fun stage' hmem => ?_⟩
    below := fun other plan hmem => hpast.below other plan (hold other plan hmem)
    single := fun i j plan plan' hi hj =>
      hpast.single i j plan plan' (hold i plan hi) (hold j plan' hj)
    landed := fun other stage' plan hother hlanded => ?_
    waiting := fun other plan step hother => ?_
    changed := fun other plan hmem => ?_ }
  · rcases List.mem_or_eq_of_mem_set hmem with hmem | hmem
    · exact hpast.sound.calls stage' hmem
    · exact hfits stage' hmem.symm
  · apply List.mem_append_left
    rcases hstages other stage' hother with ⟨rfl, hnew⟩ | hsame
    · exact hnext stage' plan hnew hlanded
    · exact hpast.landed other stage' plan hsame hlanded
  · rcases hstages other _ hother with ⟨-, hnew⟩ | hsame
    · exact hwaiting plan step hnew
    · exact hpast.waiting other plan step hsame
  · apply List.mem_append_left
    rcases List.mem_append.mp hmem with hmem | hmem
    · exact hpast.changed other plan hmem
    · obtain ⟨note, hnote, heq⟩ := List.mem_map.mp hmem
      obtain ⟨rfl, hchanged⟩ := Prod.mk.inj heq
      exact (hnotes note hnote).2 plan hchanged

/-- A call that is over. -/
theorem history_over (hpast : History h zone start f past) {id : Nat}
    (hstage : f.stage id = some stage)
    (hnotes : ∀ note ∈ notes, (∀ plan, note ≠ .landed plan)
      ∧ ∀ plan, note = .changed plan → (id, Note.landed plan) ∈ past) :
    History h zone start
      { shared := f.shared, calls := f.calls.set id none }
      (past ++ notes.map fun note => (id, note)) := by
  refine history_wait hpast hstage ?_ ?_ ?_ hnotes
  · intro stage' hnext
    cases hnext
  · intro stage' plan hnext
    cases hnext
  · intro plan step hnext
    cases hnext

/-- A `PATCH` that reaches the zone under the serial its call has read. -/
theorem history_land (hpast : History h zone start f past) {id : Nat}
    {call : Call} {plan : Plan} {failed : Bool}
    (hstage : f.stage id = some (.patching call plan))
    (hserial : serialIn zone f.shared = some plan.base)
    (hapart : ∀ other waiting step, other ≠ id →
      f.stage other = some (.announcing waiting step) →
      waiting.key ∉ plan.changes.map (Change.key rrsetKey)) :
    History h zone start
      { shared := f.shared.patch plan.changes,
        calls := f.calls.set id (some (.verifying call plan true failed)) }
      (past ++ [(id, .landed plan)]) := by
  have hfits : Fits h zone start plan :=
    hpast.sound.calls _ (Protocol.mem_calls_of_stage hstage) plan rfl
  have hnew := serialIn_patch hfits f.shared
  have hmem : ∀ other plan',
      (other, Note.landed plan') ∈ past ++ [(id, .landed plan)] →
      (other, Note.landed plan') ∈ past ∨ (other = id ∧ plan' = plan) := by
    intro other plan' hmem
    rcases List.mem_append.mp hmem with hmem | hmem
    · exact .inl hmem
    · obtain ⟨hid, hnote⟩ := Prod.mk.inj (List.mem_singleton.mp hmem)
      rw [Note.landed.injEq] at hnote
      exact .inr ⟨hid, hnote⟩
  -- What has landed before started below the serial this one starts from.
  have hless : ∀ other plan', (other, Note.landed plan') ∈ past →
      plan'.base < plan.base := by
    intro other plan' hother
    obtain ⟨n, hn, hlt⟩ := hpast.below other plan' hother
    rw [hserial] at hn
    rw [← Option.some.inj hn] at hlt
    exact hlt
  refine {
    sound := ⟨kept_patch hpast.sound.shared hfits, fun stage' hstage' => ?_⟩
    below := fun other plan' hother => ⟨plan.serial, hnew, ?_⟩
    single := fun i j planᵢ planⱼ hi hj hbase => ?_
    landed := fun other stage' plan' hother hlanded => ?_
    waiting := fun other plan' step hother => ?_
    changed := fun other plan' hother => ?_ }
  · rcases List.mem_or_eq_of_mem_set hstage' with hmem' | hmem'
    · exact hpast.sound.calls stage' hmem'
    · obtain rfl := Option.some.inj hmem'
      intro plan' hplan'
      obtain rfl := Option.some.inj hplan'
      exact hfits
  · have hnext := hfits.next
    rcases hmem other plan' hother with hother | ⟨-, rfl⟩
    · have hlt := hless other plan' hother
      omega
    · omega
  · rcases hmem i planᵢ hi with hold | ⟨hid, hplan⟩
    · rcases hmem j planⱼ hj with hold' | ⟨hid', hplan'⟩
      · exact hpast.single i j planᵢ planⱼ hold hold' hbase
      · have hlt := hless i planᵢ hold
        rw [hbase, hplan'] at hlt
        omega
    · rcases hmem j planⱼ hj with hold' | ⟨hid', hplan'⟩
      · have hlt := hless j planⱼ hold'
        rw [← hbase, hplan] at hlt
        omega
      · rw [hid, hid']
  · by_cases hid : id = other
    · subst hid
      rw [Flight.stage_set_self hstage] at hother
      obtain rfl := Option.some.inj hother
      obtain rfl := Option.some.inj hlanded
      exact List.mem_append_right _ (List.mem_singleton_self _)
    · rw [Flight.stage_set_ne f hid] at hother
      exact List.mem_append_left _
        (hpast.landed other stage' plan' hother hlanded)
  · by_cases hid : id = other
    · subst hid
      rw [Flight.stage_set_self hstage] at hother
      cases hother
    · rw [Flight.stage_set_ne f hid] at hother
      exact present_patch hfits (hpast.waiting other plan' step hother)
        (hapart other plan' step (Ne.symm hid) hother)
  · apply List.mem_append_left
    rcases List.mem_append.mp hother with hother | hother
    · exact hpast.changed other plan' hother
    · cases (Prod.mk.inj (List.mem_singleton.mp hother)).2

/-- One request in order. -/
theorem history_turn (hpast : History h zone start f past) {id : Nat}
    (hstage : f.stage id = some stage)
    (horder : InOrder h zone f id answer stage)
    (hturn : Turn h zone f.shared stage answer result)
    (hfits : ∀ next, result.2.1 = some next → Fitting h zone start next) :
    History h zone start
      { shared := result.1, calls := f.calls.set id result.2.1 }
      (past ++ result.2.2.map fun note => (id, note)) := by
  -- A call that is confirmed is confirmed of its own `PATCH`.
  have hown : ∀ call plan landed failed,
      stage = .verifying call plan landed failed → answer = .answered →
      plan.confirmed h (readZone zone.text f.shared) = true →
      (id, Note.landed plan) ∈ past := by
    intro call plan landed failed hverifying hanswer hconfirmed
    subst hverifying
    cases landed with
    | true => exact hpast.landed id _ plan hstage rfl
    | false =>
        have hnot := horder hanswer rfl
        rw [hconfirmed] at hnot
        cases hnot
  cases hturn with
  | @ends note hnote =>
      refine history_over hpast hstage fun other hother => ?_
      obtain rfl := List.mem_singleton.mp hother
      rcases hnote with rfl | rfl
      · exact ⟨nofun, nofun⟩
      · exact ⟨nofun, nofun⟩
  | @planned plan next hprepared hplan hlanded =>
      refine history_wait hpast hstage hfits ?_ ?_ (fun _ h => by cases h)
      · intro stage' plan' hnext hlanded'
        obtain rfl := Option.some.inj hnext
        rw [hlanded] at hlanded'
        cases hlanded'
      · intro plan' step hnext
        obtain rfl := Option.some.inj hnext
        cases hlanded
  | @waits next hplan hlanded hwaiting =>
      refine history_wait hpast hstage hfits ?_ ?_ (fun _ h => by cases h)
      · intro stage' plan hnext hlanded'
        obtain rfl := Option.some.inj hnext
        exact hpast.landed id stage plan hstage (hlanded ▸ hlanded')
      · intro plan step hnext
        obtain ⟨step', hannouncing⟩ := hwaiting plan step (Option.some.inj hnext)
        rw [hannouncing] at hstage
        exact hpast.waiting id plan step' hstage
  | @landed call plan failed hpatching hanswer =>
      subst hpatching
      obtain ⟨hserial, hapart⟩ := horder hanswer
      exact history_land hpast hstage hserial hapart
  | @announces call plan landed failed step hverifying hanswer hconfirmed =>
      refine history_wait hpast hstage hfits ?_ ?_ (fun _ h => by cases h)
      · intro stage' plan' hnext hlanded'
        obtain rfl := Option.some.inj hnext
        obtain rfl := Option.some.inj hlanded'
        exact hown call plan landed failed hverifying hanswer hconfirmed
      · intro plan' step' hnext
        have heq := Option.some.inj hnext
        rw [Stage.announcing.injEq] at heq
        rw [← heq.1]
        exact (present_of_confirmed hconfirmed).1
  | @returns call plan landed failed hverifying hanswer hconfirmed =>
      refine history_over hpast hstage fun other hother => ?_
      obtain rfl := List.mem_singleton.mp hother
      refine ⟨nofun, fun plan' hplan' => ?_⟩
      rw [Note.changed.injEq] at hplan'
      subst hplan'
      exact hown call plan landed failed hverifying hanswer hconfirmed
  | @finishes plan step hannouncing =>
      subst hannouncing
      refine history_over hpast hstage fun other hother => ?_
      obtain rfl := List.mem_singleton.mp hother
      refine ⟨nofun, fun plan' hplan' => ?_⟩
      rw [Note.changed.injEq] at hplan'
      subst hplan'
      exact hpast.landed id _ plan hstage rfl

/-- One step in order, segment by segment. -/
theorem history_next (e : Flight.Event Call Answer Empty)
    (hok : Orderly h zone f e) (hpast : History h zone start f past) :
    History h zone start ((protocol h zone.text).machine.next f e)
      (past ++ (protocol h zone.text).machine.answer f e) := by
  have hsound := Protocol.sound_next (keeps_managed (h := h) start)
    (e := e) trivial hpast.sound
  cases e with
  | start call =>
      show History h zone start
        { f with calls := f.calls ++ [some (.reading call)] } (past ++ [])
      rw [List.append_nil]
      exact {
        sound := hsound
        below := hpast.below
        single := hpast.single
        landed := fun id stage plan hstage hlanded => by
          rcases Flight.stage_start_eq_some hstage with hstage | ⟨-, rfl⟩
          · exact hpast.landed id stage plan hstage hlanded
          · cases hlanded
        waiting := fun id plan step hstage => by
          rcases Flight.stage_start_eq_some hstage with hstage | ⟨-, hnew⟩
          · exact hpast.waiting id plan step hstage
          · cases hnew
        changed := hpast.changed }
  | answer id answer =>
      show History h zone start
        ((protocol h zone.text).step f (.answer id answer)).1
        (past ++ ((protocol h zone.text).step f (.answer id answer)).2)
      cases hstage : f.stage id with
      | none =>
          rw [Protocol.step_answer_none _ answer hstage, List.append_nil]
          exact hpast
      | some stage =>
          rw [Protocol.step_answer _ answer hstage]
          have hturn := turn_resume h zone f.shared stage answer
          have horder := hok stage hstage
          have hfits := (kept_turn hturn hpast.sound.shared
            (hpast.sound.calls stage (Protocol.mem_calls_of_stage hstage))).2
          exact history_turn hpast hstage horder hturn hfits
  | world x => exact x.elim
  | restart =>
      show History h zone start
        { shared := f.shared, calls := f.calls.map fun _ => none } (past ++ [])
      rw [List.append_nil]
      have hnone : ∀ id, Flight.stage
          { shared := f.shared,
            calls := f.calls.map fun _ => (none : Option Stage) } id = none :=
        Flight.stage_forgotten f.shared f.calls
      exact {
        sound := hsound
        below := hpast.below
        single := hpast.single
        landed := fun id stage plan hstage => by
          rw [hnone] at hstage
          cases hstage
        waiting := fun id plan step hstage => by
          rw [hnone] at hstage
          cases hstage
        changed := hpast.changed }

/-- What a call returns is there. -/
theorem present_next (hpast : History h zone start f past)
    {e : Flight.Event Call Answer Empty} {id : Nat} {plan : Plan}
    (hnote : (id, Note.changed plan)
      ∈ (protocol h zone.text).machine.answer f e) :
    Present h zone ((protocol h zone.text).machine.next f e).shared plan := by
  obtain ⟨answer, stage, rfl, hstage, hmem⟩ := Protocol.mem_answer hnote
  show Present h zone
    ((protocol h zone.text).step f (.answer id answer)).1.shared plan
  rw [Protocol.step_answer _ answer hstage]
  have hturn := turn_resume h zone f.shared stage answer
  have hresult : ∀ {result : Hosted × Option Stage × List Note},
      Turn h zone f.shared stage answer result →
      Note.changed plan ∈ result.2.2 → Present h zone result.1 plan := by
    intro result hturn hmem
    cases hturn with
    | ends hover =>
        have hnote := List.mem_singleton.mp hmem
        rcases hover with rfl | rfl <;> cases hnote
    | planned _ _ _ => cases hmem
    | waits _ _ _ => cases hmem
    | landed _ _ => cases List.mem_singleton.mp hmem
    | announces _ _ _ => cases hmem
    | returns _ _ hconfirmed =>
        have hnote := List.mem_singleton.mp hmem
        rw [Note.changed.injEq] at hnote
        rw [hnote]
        exact (present_of_confirmed hconfirmed).1
    | @finishes waiting step hannouncing =>
        have hnote := List.mem_singleton.mp hmem
        rw [Note.changed.injEq] at hnote
        rw [hnote]
        rw [hannouncing] at hstage
        exact hpast.waiting id waiting step hstage
  exact hresult hturn hmem

end orderly

/-- Where every `PATCH` reaches the zone under the serial its call has read,
calls on one zone do not get in each other's way. -/
theorem manual_calls_stay_apart (h : Host) (zone : Owner) (start : Hosted)
    (events : List (Flight.Event Call Answer Empty))
    (hok : (protocol h zone.text).machine.Allowed (Orderly h zone)
      (Flight.fresh start) events) :
    StayApart h zone start events := by
  have hend := Protocol.noted_run (P := History h zone start)
    (fun f e past hok hpast => history_next e hok hpast) hok
    (history_fresh start)
  rw [List.nil_append] at hend
  refine {
    single := fun id id' plan plan' hplan hplan' hbase =>
      hend.single id id' plan plan' (hend.changed id plan hplan)
        (hend.changed id' plan' hplan') hbase
    present := fun x hx id plan hnote => ?_
    kept := managed_kept start events }
  have hall := Machine.allowed_and_invariant
    (P := fun f => ∃ past, History h zone start f past)
    (fun f e hok ⟨past, hpast⟩ => ⟨_, history_next e hok hpast⟩) hok
    ⟨[], history_fresh start⟩
  obtain ⟨-, past, hpast⟩ := Machine.forall_mem_steps_of_allowed hall x hx
  exact present_next hpast hnote

-- ====== samples

/-- A call that puts a text of its own under a name. -/
def sampleCall (owner : Owner) (text : String) (serial : Nat) : Call where
  request := .apply {
    owner := owner
    type := .txt
    ttl := 3600
    values := [text.toList] }
  expectedSerial := serial
  notifySecondaries := false

def leftOwner : Owner where
  text := "_left.example.org"
  nonempty := by decide
  allowed := Text.forall_mem_of_all (by decide)
  relative := by decide

def rightOwner : Owner where
  text := "_right.example.org"
  nonempty := by decide
  allowed := Text.forall_mem_of_all (by decide)
  relative := by decide

def sampleZone : Owner := Reapply.sampleRequest.intent.zoneName

def sampleStart : Hosted := Reapply.sampleHosted []

abbrev sampleProtocol := protocol sampleHost sampleZone.text

/-- The calls that return a change, with the serial each started from. -/
def winners (events : List (Flight.Event Call Answer Empty)) :
    List (Nat × Nat) :=
  (sampleProtocol.notes (Flight.fresh sampleStart) events).filterMap
    fun (id, note) =>
      match note with
      | .changed plan => some (id, plan.base)
      | _ => none

theorem mem_winners {events : List (Flight.Event Call Answer Empty)}
    {id base : Nat} (hmem : (id, base) ∈ winners events) :
    ∃ plan, (id, Note.changed plan)
        ∈ sampleProtocol.notes (Flight.fresh sampleStart) events
      ∧ plan.base = base := by
  obtain ⟨⟨id', note⟩, hnote, heq⟩ := List.mem_filterMap.mp hmem
  cases note with
  | changed plan =>
      obtain ⟨rfl, rfl⟩ := Prod.mk.inj (Option.some.inj heq)
      exact ⟨plan, hnote, rfl⟩
  | _ => cases heq

/-- Two calls that have read one serial, and then both write. -/
def bothAtOnce : List (Flight.Event Call Answer Empty) := [
  .start (sampleCall leftOwner "left" 2026010101),
  .start (sampleCall rightOwner "right" 2026010101),
  .answer 0 .answered,
  .answer 1 .answered,
  .answer 0 .answered,
  .answer 1 .answered,
  .answer 0 .answered,
  .answer 1 .answered]

/-- The calls one after the other, each under the serial it finds. -/
def oneByOne : List (Flight.Event Call Answer Empty) := [
  .start (sampleCall leftOwner "left" 2026010101),
  .answer 0 .answered,
  .answer 0 .answered,
  .answer 0 .answered,
  .start (sampleCall rightOwner "right" 2026010102),
  .answer 1 .answered,
  .answer 1 .answered,
  .answer 1 .answered]

theorem winners_samples :
    winners bothAtOnce = [(0, 2026010101), (1, 2026010101)]
      ∧ winners oneByOne = [(0, 2026010101), (1, 2026010102)] := by
  constructor <;> decide +kernel

/-- Two calls that have read the same serial both succeed. -/
theorem both_calls_succeed :
    ¬StayApart sampleHost sampleZone sampleStart bothAtOnce := by
  intro hapart
  have hwinners := winners_samples.1
  have hfirst : (0, 2026010101) ∈ winners bothAtOnce := by
    rw [hwinners]
    simp
  have hsecond : (1, 2026010101) ∈ winners bothAtOnce := by
    rw [hwinners]
    simp
  obtain ⟨left, hleft, hleftBase⟩ := mem_winners hfirst
  obtain ⟨right, hright, hrightBase⟩ := mem_winners hsecond
  have hsame := hapart.single 0 1 left right hleft hright
    (hleftBase.trans hrightBase.symm)
  omega

/-- Whether an event comes in order, nothing being announced. -/
def orderlyAt (f : Flight Hosted Stage) :
    Flight.Event Call Answer Empty → Bool
  | .answer id _ =>
      match f.stage id with
      | some (.patching _ plan) => serialIn sampleZone f.shared == some plan.base
          && f.calls.all fun stage =>
            match stage with
            | some (.announcing _ _) => false
            | _ => true
      | some (.verifying _ _ landed _) => landed
      | _ => true
  | _ => true

theorem orderly_of_orderlyAt (f : Flight Hosted Stage)
    (e : Flight.Event Call Answer Empty) (hat : orderlyAt f e = true) :
    Orderly sampleHost sampleZone f e := by
  cases e with
  | answer id answer =>
      intro stage hstage
      unfold orderlyAt at hat
      dsimp only at hat
      rw [hstage] at hat
      cases stage with
      | patching call plan =>
          dsimp only at hat
          rw [Bool.and_eq_true, beq_iff_eq, List.all_eq_true] at hat
          refine fun _ => ⟨hat.1, fun other waiting step _ hother => ?_⟩
          have hnot := hat.2 _ (Protocol.mem_calls_of_stage hother)
          cases hnot
      | verifying call plan landed failed =>
          intro _ hlanded
          rw [hlanded] at hat
          cases hat
      | _ => trivial
  | _ => trivial

/-- One by one the calls both succeed and stay apart. -/
theorem one_by_one_stay_apart :
    winners oneByOne = [(0, 2026010101), (1, 2026010102)]
      ∧ StayApart sampleHost sampleZone sampleStart oneByOne := by
  refine ⟨winners_samples.2, manual_calls_stay_apart sampleHost sampleZone
    sampleStart oneByOne ?_⟩
  apply sampleProtocol.machine.allowed_mono orderly_of_orderlyAt
  decide +kernel

example : keyText "a" "A" ≠ keyText "" "A" := by decide +kernel

end Yunpanel.Dns.Manual
