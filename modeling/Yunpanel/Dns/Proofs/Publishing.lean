/-
The serials a zone is published under.

A reapply and a change by hand raise the serial they read, so whatever they
write comes with a serial no secondary has seen (`raises_reapply`,
`raises_manual`). Provisioning takes the first serial of its day and a
rollback the one of its snapshot, whatever the zone has by then; they raise
the serial, or write nothing, exactly where somebody sees to it
(`Advances`). That is all `Machine.followed_of_allowed` asks for.

Neither provisioning nor a reapply touches an RRset that the panel did not
write (`manual_applyExisting`): where one is in the way, nothing is written.
-/
import Yunpanel.Lib.Versions
import Yunpanel.Dns.Proofs.Manual
import Yunpanel.Dns.Publishing

namespace Yunpanel.Dns.Publishing

open Lib Lib.Keyed Lib.Result

variable {h : Host} {zone : Owner}

-- ====== statements

/-- What is published under each key. -/
def published (zone : Owner) (site : Site) (k : String) : Option Rrset :=
  site.hosted.bind fun hosted => Manual.there zone hosted k

/-- The serial of what is published. -/
def serialOn (zone : Owner) (content : String → Option Rrset) : Option Nat :=
  serialOf (content (soaKey zone.text))

/-- What provisioning writes in a zone there is. -/
def provisionChanges (h : Host) (zone : Owner) (request : Provision)
    (hosted : Hosted) : Except Failure (List Change) := do
  let records ← request.records h zone
  let desired ← desiredRrsets h zone.text records
  changesFor h (readZone zone.text hosted) desired

/-- An operation that publishes nothing new, or under a serial that is
later: provisioning writes a zone there is only where the first serial of the
day is after the one it has, and a rollback finds no RRset to restore. -/
def Advances (h : Host) (zone : Owner) (site : Site) : Operation → Prop
  | .provision request => ∀ hosted changes, site.hosted = some hosted →
      provisionChanges h zone request hosted = .ok changes → changes ≠ [] →
      ∀ n, (readZone zone.text hosted).serial = some n →
        n < request.today.serial
  | .rollback operationId => ∀ hosted before after plan,
      site.hosted = some hosted →
      site.operations[operationId]? = some (before, after) →
      rollbackSnapshotPlan (some (readZone zone.text hosted)) before after
        = .ok plan →
      plan.changes = []
  | _ => True

-- ====== SOA records

variable {rest : List Char} {intent : Intent} {desired : List Rrset}
  {site' : Site}

/-- The words before a space stay in front of the others. -/
theorem splitSpaces_append_space (xs : List Char)
    (hrest : rest.head?.any Text.isSpace = false) :
    ∃ words, words ≠ []
      ∧ splitSpaces (xs ++ ' ' :: rest) = words ++ splitSpaces rest := by
  induction xs with
  | nil =>
      have hspace : Text.isSpace ' ' = true := by decide
      refine ⟨[[]], by simp, ?_⟩
      rw [List.nil_append, splitSpaces, if_pos hspace, if_neg (by simp [hrest])]
      rfl
  | cons x xs ih =>
      obtain ⟨words, hne, hsplit⟩ := ih
      rw [List.cons_append, splitSpaces, hsplit]
      by_cases hx : Text.isSpace x = true
      · rw [if_pos hx]
        split
        · exact ⟨words, hne, rfl⟩
        · exact ⟨[] :: words, by simp, rfl⟩
      · rw [if_neg hx]
        obtain ⟨word, words, rfl⟩ := List.exists_cons_of_ne_nil hne
        exact ⟨(x :: word) :: words, by simp, rfl⟩

theorem dropWhile_append_space (xs rest : List Char)
    (hrest : rest.head?.any Text.isSpace = false) :
    (xs ++ ' ' :: rest).dropWhile Text.isSpace = rest
      ∨ ∃ ys, (xs ++ ' ' :: rest).dropWhile Text.isSpace = ys ++ ' ' :: rest := by
  induction xs with
  | nil =>
      left
      rw [List.nil_append, List.dropWhile_cons_of_pos (by decide)]
      cases rest with
      | nil => rfl
      | cons c cs =>
          have hc : ¬Text.isSpace c = true := by simpa using hrest
          rw [List.dropWhile_cons_of_neg hc]
  | cons x xs ih =>
      rw [List.cons_append]
      by_cases hx : Text.isSpace x = true
      · rw [List.dropWhile_cons_of_pos hx]
        exact ih
      · rw [List.dropWhile_cons_of_neg hx]
        exact .inr ⟨x :: xs, rfl⟩

/-- Trimming leaves the words after a space as they are. -/
theorem splitSpaces_trim_append (xs : List Char) (hne : rest ≠ [])
    (hhead : rest.head?.any Text.isSpace = false)
    (hlast : rest.getLast?.any Text.isSpace = false) :
    ∃ words, splitSpaces (Text.trim (xs ++ ' ' :: rest))
      = words ++ splitSpaces rest := by
  have hkept : ∀ ys, ys.getLast? = rest.getLast? →
      (List.dropWhile Text.isSpace ys.reverse).reverse = ys := by
    intro ys hys
    have hdrop : ys.reverse.dropWhile Text.isSpace = ys.reverse := by
      cases hreverse : ys.reverse with
      | nil => rfl
      | cons c cs =>
          have hc : ys.getLast? = some c := by
            rw [← List.head?_reverse, hreverse, List.head?_cons]
          rw [← hys, hc] at hlast
          have hspace : ¬Text.isSpace c = true := by simpa using hlast
          rw [List.dropWhile_cons_of_neg hspace]
    rw [hdrop, List.reverse_reverse]
  unfold Text.trim
  rcases dropWhile_append_space xs rest hhead with hdrop | ⟨ys, hdrop⟩
  · rw [hdrop, hkept rest rfl]
    exact ⟨[], rfl⟩
  · have hends : (ys ++ ' ' :: rest).getLast? = rest.getLast? := by
      rw [List.getLast?_append_of_ne_nil _ (by simp),
        List.getLast?_cons_of_ne_nil hne]
    rw [hdrop, hkept _ hends]
    obtain ⟨words, -, hsplit⟩ := splitSpaces_append_space ys hhead
    exact ⟨words, hsplit⟩

theorem word_decimal (n : Nat) : Word (decimal n) := by
  refine ⟨Nat.toDigits_ne_nil, fun c hc => ?_⟩
  have hdigit := isDigit_decimal n c hc
  simp only [Text.isDigit, Bool.and_eq_true, decide_eq_true_eq, Char.le_def,
    UInt32.le_iff_toNat_le] at hdigit
  have hlo : 48 ≤ c.toNat := hdigit.1
  have hhi : c.toNat ≤ 57 := hdigit.2
  exact Domains.isSpace_of_range (by omega) (by omega)

variable {serial n : Nat} {records : List Record} {site : Site}

/-- The value of a SOA record keeps the serial it is asked for with. -/
theorem soaValue_eq_ok {p : Platform} {soa : SoaSettings}
    {value : List Char} (hserial : serial ≤ 4294967295)
    (hvalue : DesiredState.recordValue p .soa (DesiredState.soaValue soa serial)
      = .ok value) :
    ∃ (t u : List Char) (refresh retry expire minimum : Nat),
      Target p t ∧ Target p u
      ∧ value = spaced [t, u, decimal serial, decimal refresh, decimal retry,
          decimal expire, decimal minimum] := by
  unfold DesiredState.recordValue at hvalue
  obtain ⟨-, hvalue⟩ := guard_eq_ok.mp hvalue
  have hnumbers : ∀ w ∈ [decimal serial, decimal soa.refresh,
      decimal soa.retry, decimal soa.expire, decimal soa.minimum], Word w := by
    simpa using ⟨word_decimal serial, word_decimal soa.refresh,
      word_decimal soa.retry, word_decimal soa.expire, word_decimal soa.minimum⟩
  have hne : spaced [decimal serial, decimal soa.refresh, decimal soa.retry,
      decimal soa.expire, decimal soa.minimum] ≠ [] := by
    rw [spaced_cons]
    simp
  have hparts : DesiredState.soaValue soa serial
      = (soa.primaryNs ++ ' ' :: soa.rname) ++ ' ' :: spaced [decimal serial,
          decimal soa.refresh, decimal soa.retry, decimal soa.expire,
          decimal soa.minimum] := by
    unfold DesiredState.soaValue
    rw [spaced_cons, spaced_cons, List.append_assoc, List.cons_append]
  have hhead : (spaced [decimal serial, decimal soa.refresh, decimal soa.retry,
      decimal soa.expire, decimal soa.minimum]).head? = (decimal serial).head? :=
    head?_spaced (word_decimal serial).nonempty
  obtain ⟨words, hwords⟩ := splitSpaces_trim_append
    (soa.primaryNs ++ ' ' :: soa.rname) hne
    (by rw [hhead]; exact (word_decimal serial).head?) (getLast?_spaced hnumbers)
  rw [splitSpaces_spaced (by simp) hnumbers, ← hparts] at hwords
  unfold DesiredState.normalizeValue at hvalue
  dsimp only at hvalue
  rw [hwords] at hvalue
  split at hvalue
  · rename_i primaryNs rname serialWord refreshWord retryWord expireWord
      minimumWord heq
    have hsuffix := (List.append_inj' (show words ++ [decimal serial,
        decimal soa.refresh, decimal soa.retry, decimal soa.expire,
        decimal soa.minimum]
      = [primaryNs, rname] ++ [serialWord, refreshWord, retryWord, expireWord,
        minimumWord] from heq) rfl).2
    obtain ⟨t, ht, hvalue⟩ := bind_eq_ok.mp hvalue
    obtain ⟨u, hu, hvalue⟩ := bind_eq_ok.mp hvalue
    obtain ⟨read, hread, hvalue⟩ := bind_eq_ok.mp hvalue
    obtain ⟨refresh, -, hvalue⟩ := bind_eq_ok.mp hvalue
    obtain ⟨retry, -, hvalue⟩ := bind_eq_ok.mp hvalue
    obtain ⟨expire, -, hvalue⟩ := bind_eq_ok.mp hvalue
    obtain ⟨minimum, -, hvalue⟩ := bind_eq_ok.mp hvalue
    rw [← (List.cons.inj hsuffix).1, uint_decimal _ hserial (by omega)] at hread
    obtain rfl := Except.ok.inj hread
    exact ⟨t, u, refresh, retry, expire, minimum, target_of_fqdn ht,
      target_of_fqdn hu, (Except.ok.inj hvalue).symm⟩
  · cases hvalue

/-- An RRset with one record, which has a serial. -/
structure Serialled (n : Nat) (rrset : Rrset) : Prop where
  serial : serialOf (some rrset) = some n
  single : ∃ entry, rrset.records = [entry]

variable {rrset current wanted : Rrset} {hosted : Hosted} {allow : Bool}
  {changes : List Change}

/-- What the SOA record of a rendered zone is turned into. -/
theorem serialled_of_soaRecord {record : Record} (hpos : 1 ≤ serial)
    (hmax : serial ≤ 4294967295)
    (hrecord : DesiredState.soaRecord h.toPlatform intent serial = .ok record)
    (hrrset : desiredRrset h record = .ok rrset) :
    Serialled serial rrset ∧ rrsetKey rrset = soaKey intent.zoneName.text := by
  obtain ⟨-, howner, -, htype, hvalues⟩ := Reapply.record_eq_ok hrecord
  obtain ⟨hname, htypeText, hentries, -⟩ :=
    desiredRrset_eq_ok (Reapply.owned_of_owner howner) hrrset
  have hasked := mapM_eq_ok_iff.mp hvalues
  cases hrecordValues : record.values with
  | nil =>
      rw [hrecordValues] at hasked
      cases hasked
  | cons value values =>
      rw [hrecordValues] at hasked hentries
      obtain ⟨hvalue, hrest⟩ := List.forall₂_cons.mp hasked
      cases hrest
      obtain ⟨t, u, refresh, retry, expire, minimum, ht, hu, rfl⟩ :=
        soaValue_eq_ok hmax hvalue
      have hwords : ∀ w ∈ [t, u, decimal serial, decimal refresh, decimal retry,
          decimal expire, decimal minimum], Word w := by
        simpa using ⟨ht.word, hu.word, word_decimal serial, word_decimal refresh,
          word_decimal retry, word_decimal expire, word_decimal minimum⟩
      have hshown : ∀ w ∈ [fqdn t, fqdn u, decimal serial, decimal refresh,
          decimal retry, decimal expire, decimal minimum], Word w := by
        simpa using ⟨ht.word_fqdn, hu.word_fqdn, word_decimal serial,
          word_decimal refresh, word_decimal retry, word_decimal expire,
          word_decimal minimum⟩
      have hcontent : powerDnsContent record.type (spaced [t, u, decimal serial,
          decimal refresh, decimal retry, decimal expire, decimal minimum])
          = .ok (spaced [fqdn t, fqdn u, decimal serial, decimal refresh,
              decimal retry, decimal expire, decimal minimum]) := by
        rw [htype]
        unfold powerDnsContent
        dsimp only
        rw [splitSpaces_spaced (by simp) hwords]
        rfl
      have hmade := mapM_eq_ok_iff.mp hentries
      cases hrecords : rrset.records with
      | nil =>
          rw [hrecords] at hmade
          cases hmade
      | cons entry entries =>
          rw [hrecords] at hmade
          obtain ⟨hentry, hnone⟩ := List.forall₂_cons.mp hmade
          cases hnone
          unfold entryOf at hentry
          rw [hcontent] at hentry
          obtain rfl := Except.ok.inj hentry
          refine ⟨⟨?_, ⟨_, hrecords⟩⟩, ?_⟩
          · exact serialOf_spaced hrecords hshown rfl hpos hmax
          · unfold rrsetKey soaKey
            rw [hname, htypeText, howner, htype]
            rfl

-- ====== desired

/-- Records rendered under a serial. -/
structure Rendered (h : Host) (zone : Owner) (n : Nat) (records : List Record) :
    Prop where
  owned : ∀ record ∈ records, Owned record
  soa : ∃ record ∈ records, ∀ rrset, desiredRrset h record = .ok rrset →
    Serialled n rrset ∧ rrsetKey rrset = soaKey zone.text

/-- The first record of a rendered zone is its SOA record. -/
theorem soa_of_render
    (hrender : DesiredState.render h.toPlatform intent serial = .ok records) :
    ∃ soa rest, records = soa :: rest ∧ soa.key = "zone-soa"
      ∧ ∀ rrset, desiredRrset h soa = .ok rrset →
        Serialled serial rrset ∧ rrsetKey rrset = soaKey intent.zoneName.text := by
  obtain ⟨hpos, hmax, soa, template, mail, hsoa, -, -, hrecords⟩ :=
    Reapply.render_eq_ok hrender
  refine ⟨soa, template ++ mail, hrecords, (Reapply.record_eq_ok hsoa).1, ?_⟩
  intro rrset hrrset
  exact serialled_of_soaRecord hpos hmax hsoa hrrset

theorem rendered_of_desiredState (hzone : intent.zoneName = zone)
    (hrender : DesiredState.render h.toPlatform intent serial = .ok records) :
    Rendered h zone serial records := by
  have howned := Reapply.owned_of_desiredState hrender
  obtain ⟨soa, rest, hrecords, -, hmade⟩ := soa_of_render hrender
  subst hzone
  constructor
  · intro record hrecord
    exact (howned record hrecord).1
  · refine ⟨soa, ?_, hmade⟩
    rw [hrecords]
    exact List.mem_cons_self

/-- What is rendered for a domain has the SOA record too. -/
theorem rendered_of_render {request : Reapply.Request}
    (hzone : request.intent.zoneName = zone)
    (hrender : Reapply.render h request serial = .ok records) :
    Rendered h zone serial records := by
  have howned := Reapply.owned_of_render hrender
  obtain ⟨all, hall, hrecords⟩ := bind_eq_ok.mp hrender
  obtain ⟨soa, rest, hfirst, hkey, hmade⟩ := soa_of_render hall
  subst hzone
  constructor
  · intro record hrecord
    exact (howned record hrecord).1
  · refine ⟨soa, ?_, hmade⟩
    rw [← Except.ok.inj hrecords]
    apply List.mem_append_left
    rw [hfirst, List.mem_filter]
    refine ⟨List.mem_cons_self, ?_⟩
    show (!(_ && decide (soa.key = "www-alias"))) = true
    rw [hkey]
    simp

/-- Each RRset that is wanted for rendered records is made of one. -/
theorem wanted_of_rendered (hr : Rendered h zone n records)
    (hdesired : desiredRrsets h zone.text records = .ok desired)
    (hrrset : rrset ∈ desired) :
    ∃ record, Wanted h record rrset := by
  obtain ⟨desired', hmap, hdesired⟩ := bind_eq_ok.mp hdesired
  obtain ⟨-, -, hdesired⟩ := bind_eq_ok.mp hdesired
  obtain rfl := Except.ok.inj hdesired
  obtain ⟨record, hrecord, hmade⟩ := exists_of_forall₂
    (Reapply.desiredRrsetMap_eq_ok.mp (Reapply.desiredMap_eq_ok.mp hmap)).1
    hrrset
  exact ⟨record, wanted_of_desiredRrset (hr.owned record hrecord) hmade⟩

/-- The RRsets that are wanted for rendered records. -/
theorem desired_of_rendered (hr : Rendered h zone n records)
    (hdesired : desiredRrsets h zone.text records = .ok desired) :
    (desired.map rrsetKey).Nodup
      ∧ (∀ rrset ∈ desired, Proper rrset ∧ normalizedExistingRrset rrset = rrset)
      ∧ ∃ soa, get rrsetKey desired (soaKey zone.text) = some soa
        ∧ Serialled n soa := by
  have hwanted : ∀ rrset ∈ desired, ∃ record, Wanted h record rrset :=
    fun _ hrrset => wanted_of_rendered hr hdesired hrrset
  obtain ⟨desired', hmap, hdesired⟩ := bind_eq_ok.mp hdesired
  obtain ⟨-, -, hdesired⟩ := bind_eq_ok.mp hdesired
  obtain rfl := Except.ok.inj hdesired
  obtain ⟨hall, hnodup⟩ :=
    Reapply.desiredRrsetMap_eq_ok.mp (Reapply.desiredMap_eq_ok.mp hmap)
  refine ⟨hnodup, fun rrset hrrset => ?_, ?_⟩
  · obtain ⟨record, hw⟩ := hwanted rrset hrrset
    exact ⟨hw.proper, hw.normal⟩
  · obtain ⟨record, hrecord, hsoa⟩ := hr.soa
    obtain ⟨rrset, hrrset, hmade⟩ := exists_of_forall₂ hall.flip hrecord
    obtain ⟨hserial, hkey⟩ := hsoa rrset hmade
    refine ⟨rrset, ?_, hserial⟩
    rw [← hkey]
    exact get_of_mem hnodup hrrset

-- ====== patching

theorem recordText_inj {a b : Entry} (htext : recordText a = recordText b) :
    a = b := by
  obtain ⟨content, disabled⟩ := a
  obtain ⟨content', disabled'⟩ := b
  have hlists := congrArg String.toList htext
  unfold recordText at hlists
  rw [String.toList_append, String.toList_append, String.toList_append,
    String.toList_append] at hlists
  have hcontent : ∀ (p q : Bool),
      ((if p then "1" else "0") ++ "\x00" : String).toList ++ content.toList
        = ((if q then "1" else "0") ++ "\x00" : String).toList ++ content'.toList →
      p = q ∧ content = content' := by
    intro p q heq
    cases p <;> cases q
    · exact ⟨rfl, String.toList_inj.mp (List.append_cancel_left heq)⟩
    · cases (List.cons.inj heq).1
    · cases (List.cons.inj heq).1
    · exact ⟨rfl, String.toList_inj.mp (List.append_cancel_left heq)⟩
  obtain ⟨rfl, rfl⟩ := hcontent disabled disabled' (by
    rw [String.toList_append, String.toList_append]
    exact hlists)
  rfl

/-- An RRset that is as wanted has the one record that is wanted. -/
theorem records_of_sameRecords {entry : Entry}
    (hsame : sameRecords current wanted = true)
    (hwanted : wanted.records = [entry]) : current.records = [entry] := by
  unfold sameRecords at hsame
  rw [Bool.and_eq_true, beq_iff_eq, beq_iff_eq, hwanted] at hsame
  have hperm : (current.records.map recordText).Perm [recordText entry] :=
    (Text.sort_perm _).symm.trans (hsame.2 ▸ Text.sort_perm _)
  have hmap := List.perm_singleton.mp hperm
  cases hrecords : current.records with
  | nil =>
      rw [hrecords] at hmap
      cases hmap
  | cons first rest =>
      rw [hrecords, List.map_cons] at hmap
      obtain ⟨hfirst, hrest⟩ := List.cons.inj hmap
      rw [recordText_inj hfirst, List.map_eq_nil_iff.mp hrest]

/-- What a zone has once it is written. -/
theorem there_patch (hnodup : (desired.map rrsetKey).Nodup)
    (hproper : ∀ rrset ∈ desired,
      Proper rrset ∧ normalizedExistingRrset rrset = rrset)
    (hchanges : changesFor h (readZone zone.text hosted) desired allow
      = .ok changes) :
    Manual.there zone (hosted.patch changes)
      = outcome h (readZone zone.text hosted).rrsets desired := by
  have hwritten : ∀ rrset, .replace rrset ∈ changes → Proper rrset := by
    intro rrset hrrset
    rw [changes_of_changesFor hchanges] at hrrset
    exact (hproper rrset (mem_of_replace hrrset)).1
  funext k
  exact get_patched hnodup (fun rrset hrrset => (hproper rrset hrrset).2)
    hchanges (Manual.patched_patch hosted hwritten) k

/-- A zone is written under the serial of the records, or as it is. -/
theorem serial_patch (hnodup : (desired.map rrsetKey).Nodup)
    (hproper : ∀ rrset ∈ desired,
      Proper rrset ∧ normalizedExistingRrset rrset = rrset) {soa : Rrset}
    (hsoa : get rrsetKey desired (soaKey zone.text) = some soa)
    (hserial : Serialled n soa)
    (hchanges : changesFor h (readZone zone.text hosted) desired allow
      = .ok changes) :
    serialOf (Manual.there zone (hosted.patch changes) (soaKey zone.text))
      = some n := by
  rw [there_patch hnodup hproper hchanges]
  unfold outcome
  rw [hsoa]
  dsimp only
  cases hsettled : (get rrsetKey (readZone zone.text hosted).rrsets
      (soaKey zone.text)).filter (settled h soa) with
  | none => exact hserial.serial
  | some current =>
      obtain ⟨entry, hentry⟩ := hserial.single
      have hsame := (Option.filter_eq_some_iff.mp hsettled).2
      unfold settled at hsame
      rw [Bool.and_eq_true] at hsame
      have hrecords := records_of_sameRecords hsame.1 hentry
      rw [Option.getD_some, ← hserial.serial]
      unfold serialOf
      rw [Option.bind_some, Option.bind_some, hrecords, hentry]

-- ====== operations

/-- What a site publishes depends on its RRsets only. -/
theorem published_eq
    (hhosted : site'.hosted.map Hosted.rrsets = site.hosted.map Hosted.rrsets) :
    published zone site' = published zone site := by
  funext k
  unfold published
  cases hsite : site.hosted with
  | none =>
      rw [hsite, Option.map_none, Option.map_eq_none_iff] at hhosted
      rw [hhosted]
  | some hosted =>
      rw [hsite, Option.map_some] at hhosted
      obtain ⟨hosted', hsite', hrrsets⟩ := Option.map_eq_some_iff.mp hhosted
      rw [hsite', Option.bind_some, Option.bind_some]
      unfold Manual.there
      rw [get_readZone, get_readZone, hrrsets]

/-- The version of a site is the serial its zone is read with. -/
theorem serialOn_published (site : Site) :
    serialOn zone (published zone site)
      = site.hosted.bind fun hosted => (readZone zone.text hosted).serial := by
  unfold serialOn published
  cases site.hosted with
  | none => rfl
  | some hosted =>
      rw [Option.bind_some, Option.bind_some, serial_eq_serialOf]
      rfl

/-- A `PATCH` of nothing changes nothing. -/
theorem rrsets_patch_nil (hosted : Hosted) :
    (hosted.patch []).rrsets = hosted.rrsets := by
  unfold Hosted.patch
  dsimp only
  split <;> rfl

/-- Applying records to a zone that is there leaves its RRsets, or patches
them by what is to change. -/
theorem applyExisting_cases (records : List Record) (notifySecondaries : Bool)
    (hosted : Hosted) :
    (applyExisting h zone.text records notifySecondaries hosted).rrsets
        = hosted.rrsets
      ∨ ∃ desired primary changes,
        desiredRrsets h zone.text records = .ok desired
        ∧ primary.rrsets = hosted.rrsets
        ∧ changesFor h (readZone zone.text primary) desired = .ok changes
        ∧ applyExisting h zone.text records notifySecondaries hosted
          = primary.patch changes := by
  unfold applyExisting
  cases hdesired : desiredRrsets h zone.text records with
  | error e => exact .inl rfl
  | ok desired =>
      dsimp only
      have hprimary : ∀ primary, (if notifySecondaries then
          ensurePrimaryZone hosted else .ok hosted) = .ok primary →
          primary.rrsets = hosted.rrsets := by
        intro primary hprimary
        split at hprimary
        · unfold ensurePrimaryZone at hprimary
          split at hprimary
          · rw [Except.ok.inj hprimary]
          · obtain ⟨-, hprimary⟩ := guard_eq_ok.mp hprimary
            rw [← Except.ok.inj hprimary]
        · rw [Except.ok.inj hprimary]
      cases hensured : (if notifySecondaries then ensurePrimaryZone hosted
          else .ok hosted) with
      | error e => exact .inl rfl
      | ok primary =>
          have hrrsets := hprimary primary hensured
          dsimp only
          cases hchanges : changesFor h (readZone zone.text primary) desired with
          | error e => exact .inl hrrsets
          | ok changes =>
              exact .inr ⟨desired, primary, changes, rfl, hrrsets, hchanges,
                rfl⟩

theorem readZone_rrsets {primary : Hosted}
    (hrrsets : primary.rrsets = hosted.rrsets) :
    (readZone zone.text primary).rrsets
      = (readZone zone.text hosted).rrsets :=
  congrArg (List.map _) hrrsets

/-- A zone that is there is written under the serial of the records, or
keeps its RRsets. -/
theorem serial_applyExisting (hr : Rendered h zone n records)
    (notifySecondaries : Bool) (hosted : Hosted) :
    (applyExisting h zone.text records notifySecondaries hosted).rrsets
        = hosted.rrsets
      ∨ ∃ desired changes, desiredRrsets h zone.text records = .ok desired
        ∧ changesFor h (readZone zone.text hosted) desired = .ok changes
        ∧ changes ≠ []
        ∧ (readZone zone.text (applyExisting h zone.text records
            notifySecondaries hosted)).serial = some n := by
  rcases applyExisting_cases records notifySecondaries hosted with hsame
    | ⟨desired, primary, changes, hdesired, hrrsets, hchanges, happlied⟩
  · exact .inl hsame
  · rw [happlied]
    by_cases hnil : changes = []
    · left
      rw [hnil, rrsets_patch_nil]
      exact hrrsets
    · right
      have hread : changesFor h (readZone zone.text primary) desired
          = changesFor h (readZone zone.text hosted) desired := by
        unfold changesFor changeFor obsolete
        rw [readZone_rrsets hrrsets]
      obtain ⟨hnodup, hproper, soa, hsoa, hserialled⟩ :=
        desired_of_rendered hr hdesired
      refine ⟨desired, changes, hdesired, hread ▸ hchanges, hnil, ?_⟩
      rw [serial_eq_serialOf]
      exact serial_patch hnodup hproper hsoa hserialled hchanges

theorem raises_of_serial
    (hserial : serialOn zone (published zone site') = some n)
    (hlater : ∀ hosted k, site.hosted = some hosted →
      (readZone zone.text hosted).serial = some k → k < n) :
    Machine.Raises (published zone) (serialOn zone) site site' := by
  refine ⟨n, hserial, fun k hk => ?_⟩
  rw [serialOn_published] at hk
  obtain ⟨hosted, hhosted, hk⟩ := Option.bind_eq_some_iff.mp hk
  exact hlater hosted k hhosted hk

/-- Provisioning raises the serial where the day does. -/
theorem raises_provision {request : Provision}
    (hadvances : Advances h zone site (.provision request)) :
    published zone (provision h zone request site) = published zone site
      ∨ Machine.Raises (published zone) (serialOn zone) site
          (provision h zone request site) := by
  unfold provision
  cases hrecords : request.records h zone with
  | error e => exact .inl rfl
  | ok records =>
      have hr : Rendered h zone request.today.serial records :=
        rendered_of_desiredState rfl hrecords
      dsimp only
      cases hsite : site.hosted with
      | none =>
          dsimp only
          unfold applyMissing
          cases hdesired : desiredRrsets h zone.text records with
          | error e => exact .inl (published_eq (by rw [hsite]))
          | ok desired =>
              dsimp only
              cases hchanges : changesFor h
                  (readZone zone.text request.created) desired true with
              | error e => exact .inl (published_eq (by rw [hsite]))
              | ok changes =>
                  right
                  obtain ⟨hnodup, hproper, soa, hsoa, hserialled⟩ :=
                    desired_of_rendered hr hdesired
                  refine raises_of_serial (n := request.today.serial)
                    (serial_patch hnodup hproper hsoa hserialled hchanges) ?_
                  intro hosted k hhosted
                  rw [hsite] at hhosted
                  cases hhosted
      | some hosted =>
          dsimp only
          rcases serial_applyExisting hr request.notifySecondaries hosted
            with hsame | ⟨desired, changes, hdesired, hchanges, hne, hserial⟩
          · left
            apply published_eq
            rw [hsite, Option.map_some, Option.map_some, hsame]
          · right
            refine raises_of_serial (n := request.today.serial) ?_ ?_
            · rw [serialOn_published]
              exact hserial
            · intro hosted' k hhosted
              refine hadvances hosted' changes hhosted ?_ hne k
              rw [hsite] at hhosted
              obtain rfl := Option.some.inj hhosted
              unfold provisionChanges
              rw [hrecords]
              show (desiredRrsets h zone.text records >>= _) = _
              rw [hdesired]
              exact hchanges

/-- A reapply raises the serial it reads. -/
theorem raises_reapply (request : Reapply.Request) (today : Reapply.Day)
    (site : Site) :
    published zone (reapply h zone request today site) = published zone site
      ∨ Machine.Raises (published zone) (serialOn zone) site
          (reapply h zone request today site) := by
  unfold reapply
  cases hsite : site.hosted with
  | none => exact .inl rfl
  | some hosted =>
      dsimp only
      cases hpreview : Reapply.buildPreview h (reapplyRequest zone request) today
          (some (readZone zone.text hosted)) with
      | error e => exact .inl rfl
      | ok preview =>
          dsimp only
          cases hallowed : preview.applyAllowed with
          | false => exact .inl rfl
          | true =>
              rw [Bool.not_true, if_neg (by decide)]
              cases captureRollbackSnapshot h (readZone zone.text hosted) preview
                  (reapplyRequest zone request).reconcileMail with
              | error e => exact .inl rfl
              | ok operation =>
                  dsimp only
                  obtain ⟨observed, serial, diff, hobserved, hrender, -, -, -, -,
                    -, hclear⟩ := Reapply.buildPreview_eq_ok hpreview
                  have hlater := (hclear hallowed).2.2
                  have hr : Rendered h zone serial preview.records :=
                    rendered_of_render rfl hrender
                  rcases serial_applyExisting hr
                      (!(reapplyRequest zone request).secondaryDns.isEmpty) hosted
                    with hsame | ⟨-, -, -, -, -, hserial⟩
                  · left
                    apply published_eq
                    rw [hsite, Option.map_some, Option.map_some, hsame]
                  · right
                    refine raises_of_serial (n := serial) ?_ ?_
                    · rw [serialOn_published]
                      exact hserial
                    · intro hosted' k hhosted hk
                      rw [hsite] at hhosted
                      rw [← Option.some.inj hhosted, hobserved] at hk
                      rw [← Option.some.inj hk]
                      exact hlater

/-- A rollback that restores no RRset leaves them as they are. -/
theorem published_rollback {operationId : Nat}
    (hadvances : Advances h zone site (.rollback operationId)) :
    published zone (rollback zone operationId site) = published zone site := by
  unfold rollback
  cases hoperation : site.operations[operationId]? with
  | none => rfl
  | some operation =>
      obtain ⟨before, after⟩ := operation
      apply published_eq
      dsimp only
      cases hsite : site.hosted with
      | none => rfl
      | some hosted =>
          rw [Option.map_some, Option.map_some, Option.map_some]
          unfold restoreSnapshot
          cases hplan : rollbackSnapshotPlan (some (readZone zone.text hosted))
              before after with
          | error e => rfl
          | ok plan =>
              have hnil := hadvances hosted before after plan hsite hoperation
                hplan
              dsimp only
              rw [hnil, List.isEmpty_nil, if_pos rfl]
              split <;> rfl

/-- A change by hand raises the serial it reads. -/
theorem raises_manual (call : Manual.Call) (site : Site) :
    published zone (manual h zone call site) = published zone site
      ∨ Machine.Raises (published zone) (serialOn zone) site
          (manual h zone call site) := by
  unfold manual
  cases hsite : site.hosted with
  | none => exact .inl rfl
  | some hosted =>
      dsimp only
      cases hprepare : Manual.prepare h (readZone zone.text hosted) call with
      | error e => exact .inl rfl
      | ok prepared =>
          cases prepared with
          | none => exact .inl rfl
          | some plan =>
              dsimp only
              by_cases hkind : (call.notifySecondaries
                  && !primaryKind hosted.kind) = true
              · rw [if_pos hkind]
                exact .inl rfl
              · rw [if_neg hkind]
                right
                have hp := Manual.prepare_eq_ok hprepare
                have hf := Manual.fits_of_prepared (Manual.kept_refl hosted) hp
                refine raises_of_serial (n := plan.serial) ?_ ?_
                · rw [serialOn_published]
                  exact Manual.serialIn_patch hf hosted
                · intro hosted' k hhosted hk
                  rw [hsite] at hhosted
                  have hbase : (readZone zone.text hosted).serial
                      = some plan.base := hp.serial
                  rw [← Option.some.inj hhosted, hbase] at hk
                  rw [← Option.some.inj hk, hf.next]
                  omega

/-- Where provisioning comes with a later serial and rollbacks restore
nothing, a secondary that follows the serials of a zone converges to it. -/
theorem serials_are_followed (h : Host) (zone : Owner) (start : Site)
    (operations : List Operation)
    (hok : (machine h zone).Allowed (Advances h zone) start operations) :
    (machine h zone).Followed (published zone) (serialOn zone) start
      operations := by
  apply Machine.followed_of_allowed ?_ hok
  intro site operation hadvances
  cases operation with
  | provision request => exact raises_provision hadvances
  | reapply request today => exact raises_reapply request today site
  | rollback operationId => exact .inl (published_rollback hadvances)
  | manual call => exact raises_manual call site

-- ====== what is by hand

/-- The RRsets of a site that the panel did not write. -/
def manualOn (h : Host) (zone : Owner) (site : Site) (k : String) :
    Option Rrset :=
  (published zone site k).filter fun rrset => (managed h rrset).isNone

/-- Operations that bring a zone to what the panel wants. -/
def Operation.reconciles : Operation → Bool
  | .provision _ => true
  | .reapply _ _ => true
  | _ => false

theorem managed_of_settled (hsettled : settled h wanted current = true) :
    (managed h current).isSome = true := by
  unfold settled sameManagedMetadata at hsettled
  rw [Bool.and_eq_true, Bool.and_eq_true] at hsettled
  exact hsettled.2.1

/-- What is wanted is there afterwards, as it is wanted. -/
theorem settled_outcome {rrsets : List Rrset} {k : String}
    (hget : get rrsetKey desired k = some wanted)
    (hself : settled h wanted wanted = true) :
    ∃ current, outcome h rrsets desired k = some current
      ∧ settled h wanted current = true := by
  unfold outcome
  rw [hget]
  refine ⟨_, rfl, ?_⟩
  cases hfilter : (get rrsetKey rrsets k).filter (settled h wanted) with
  | none => exact hself
  | some current => exact (Option.filter_eq_some_iff.mp hfilter).2

/-- Applying records leaves what is by hand as it is. -/
theorem manual_applyExisting (hr : Rendered h zone n records)
    (notifySecondaries : Bool) (hosted : Hosted)
    (journal journal' : List (ZoneState × ZoneState)) :
    manualOn h zone ⟨some (applyExisting h zone.text records notifySecondaries
        hosted), journal⟩
      = manualOn h zone ⟨some hosted, journal'⟩ := by
  have hsame : ∀ {hosted' : Hosted}, hosted'.rrsets = hosted.rrsets →
      manualOn h zone ⟨some hosted', journal⟩
        = manualOn h zone ⟨some hosted, journal'⟩ := by
    intro hosted' hrrsets
    have hpublished : published zone ⟨some hosted', journal⟩
        = published zone ⟨some hosted, journal'⟩ :=
      published_eq (congrArg some hrrsets)
    unfold manualOn
    rw [hpublished]
  rcases applyExisting_cases records notifySecondaries hosted with hkept
    | ⟨desired, primary, changes, hdesired, hrrsets, hchanges, happlied⟩
  · exact hsame hkept
  · obtain ⟨hnodup, hproper, -⟩ := desired_of_rendered hr hdesired
    have hun := (changesFor_eq_ok.mp hchanges).1
    unfold Unopposed at hun
    rw [happlied]
    funext k
    show (Manual.there zone (primary.patch changes) k).filter _
      = (Manual.there zone hosted k).filter _
    rw [there_patch hnodup hproper hchanges, readZone_rrsets hrrsets]
    rw [readZone_rrsets hrrsets] at hun
    show _ = (get rrsetKey (readZone zone.text hosted).rrsets k).filter _
    cases hget : get rrsetKey desired k with
    | none =>
        unfold outcome
        rw [hget]
        cases hcurrent : get rrsetKey (readZone zone.text hosted).rrsets k with
        | none => rfl
        | some current =>
            cases hmanaged : managed h current <;>
              simp [Option.filter_some, hmanaged]
    | some wanted =>
        have hmem := mem_of_get hget
        obtain ⟨record, hw⟩ := wanted_of_rendered hr hdesired hmem
        obtain ⟨current, hcurrent, hsettled⟩ :
            ∃ current, outcome h (readZone zone.text hosted).rrsets desired k
                = some current
              ∧ settled h wanted current = true :=
          settled_outcome hget (Reapply.settled_self hw)
        have hthere : ¬(managed h current).isNone = true := by
          rw [Option.isNone_iff_eq_none, ← ne_eq, ← Option.isSome_iff_ne_none]
          exact managed_of_settled hsettled
        rw [hcurrent, Option.filter_some, if_neg hthere]
        cases hbefore : get rrsetKey (readZone zone.text hosted).rrsets k with
        | none => rfl
        | some before =>
            rw [← key_of_get hget] at hbefore
            have hnot := hun wanted hmem before hbefore
            rw [Option.filter_some, if_neg (by simpa using hnot)]

/-- However often and in whatever order a zone is provisioned and the
template reapplied, the RRsets the panel did not write stay as they are, and
none come or go. -/
theorem manual_rrsets_stay (h : Host) (zone : Owner) (hosted : Hosted)
    (journal : List (ZoneState × ZoneState)) (operations : List Operation) :
    manualOn h zone ((machine h zone).run ⟨some hosted, journal⟩
        (operations.filter Operation.reconciles))
      = manualOn h zone ⟨some hosted, journal⟩ := by
  induction operations generalizing hosted journal with
  | nil => rfl
  | cons operation rest ih =>
      cases operation with
      | provision request =>
          rw [List.filter_cons_of_pos rfl, Machine.run_cons]
          show manualOn h zone ((machine h zone).run (provision h zone request
            ⟨some hosted, journal⟩) _) = _
          unfold provision
          cases hrecords : request.records h zone with
          | error e => exact ih hosted journal
          | ok records =>
              exact (ih _ _).trans (manual_applyExisting
                (rendered_of_desiredState rfl hrecords) _ hosted _ _)
      | reapply request today =>
          rw [List.filter_cons_of_pos rfl, Machine.run_cons]
          show manualOn h zone ((machine h zone).run (reapply h zone request
            today ⟨some hosted, journal⟩) _) = _
          unfold reapply
          dsimp only
          cases hpreview : Reapply.buildPreview h (reapplyRequest zone request)
              today (some (readZone zone.text hosted)) with
          | error e => exact ih hosted journal
          | ok preview =>
              dsimp only
              split
              · exact ih hosted journal
              · split
                · exact ih hosted journal
                · obtain ⟨_, serial, _, -, hrender, -⟩ :=
                    Reapply.buildPreview_eq_ok hpreview
                  exact (ih _ _).trans (manual_applyExisting
                    (rendered_of_render rfl hrender) _ hosted _ _)
      | rollback operationId =>
          rw [List.filter_cons_of_neg Bool.false_ne_true]
          exact ih hosted journal
      | manual call =>
          rw [List.filter_cons_of_neg Bool.false_ne_true]
          exact ih hosted journal

-- ====== samples

/-- The sample intent with a name server of its own. -/
def sampleIntent : Intent :=
  { Reapply.sampleRequest.intent with
    templateRecords := {
      key := "ns"
      owner := Reapply.sampleRequest.intent.zoneName
      type := .ns
      ttl := none
      values := ["ns1.example.org".toList] }
      :: Reapply.sampleRequest.intent.templateRecords }

def sampleRequest : Reapply.Request :=
  { Reapply.sampleRequest with
    intent := sampleIntent
    unresolved := fun _ => rfl }

def sampleSite : Site where
  hosted := some Manual.sampleStart
  operations := []

/-- The serials of a run from the sample zone. -/
def serials (operations : List Operation) : List (Option Nat) :=
  ((machine sampleHost Manual.sampleZone).states sampleSite operations).map
    fun site => site.hosted.bind fun hosted =>
      (readZone Manual.sampleZone.text hosted).serial

def sampleReapply : Operation :=
  .reapply sampleRequest { year := 2026, month := 1, day := 2 }

/-- The sample zone is provisioned on some day of January 2026. -/
def sampleProvision (day : Nat) : Operation :=
  .provision {
    intent := sampleIntent
    today := { year := 2026, month := 1, day := day }
    notifySecondaries := false
    created := Manual.sampleStart }

def sampleChange (serial : Nat) : Operation :=
  .manual (Manual.sampleCall Manual.leftOwner "left" serial)

/-- A reapply, a change by hand, and provisioning on a later day. -/
def forwards : List Operation :=
  [sampleReapply, sampleChange 2026010201, sampleProvision 3]

/-- A change by hand, and provisioning on the day the zone is from. -/
def backwards : List Operation := [sampleChange 2026010101, sampleProvision 1]

theorem serials_samples :
    serials forwards = [some 2026010101, some 2026010201, some 2026010202,
        some 2026010301]
      ∧ serials backwards = [some 2026010101, some 2026010102,
        some 2026010101] := by
  constructor <;> decide +kernel

theorem forwards_is_followed :
    serials forwards = [some 2026010101, some 2026010201, some 2026010202,
        some 2026010301]
      ∧ (machine sampleHost Manual.sampleZone).Followed
          (published Manual.sampleZone) (serialOn Manual.sampleZone) sampleSite
          forwards := by
  have hserials := serials_samples.1
  refine ⟨hserials, serials_are_followed sampleHost Manual.sampleZone sampleSite
    forwards ⟨trivial, trivial, ?_, trivial⟩⟩
  intro hosted changes hhosted _ _ n hn
  -- What the zone is under by then is the third entry.
  have hthird : some (Option.bind _ fun hosted =>
      (readZone Manual.sampleZone.text hosted).serial) = some (some 2026010202) :=
    congrArg (fun serials => serials[2]?) hserials
  rw [hhosted, Option.bind_some, hn] at hthird
  have hvalue : n = 2026010202 :=
    Option.some.inj (Option.some.inj hthird)
  show n < 2026010301
  omega

/-- The sample zone, once it is changed by hand. -/
def sampleChanged : Site :=
  (machine sampleHost Manual.sampleZone).next sampleSite
    (sampleChange 2026010101)

theorem serial_changed : serialOn Manual.sampleZone
    (published Manual.sampleZone sampleChanged) = some 2026010102 := by
  rw [serialOn_published]
  exact Option.some.inj
    (congrArg (fun l => l[1]?) serials_samples.2)

theorem serial_provisioned : serialOn Manual.sampleZone
    (published Manual.sampleZone ((machine sampleHost Manual.sampleZone).next
      sampleChanged (sampleProvision 1))) = some 2026010101 := by
  rw [serialOn_published]
  exact Option.some.inj
    (congrArg (fun l => l[2]?) serials_samples.2)

/-- Provisioning goes back to the first serial of the day. -/
theorem provisioning_goes_back :
    ¬(machine sampleHost Manual.sampleZone).Followed
        (published Manual.sampleZone) (serialOn Manual.sampleZone) sampleSite
        backwards := by
  intro hfollowed
  have hmem : ∀ (m : Machine Site Operation Unit) (site : Site)
      (first second : Operation),
      (m.next site first, second) ∈ m.steps site [first, second] := by
    intro m site first second
    rw [Machine.steps_cons]
    exact List.mem_cons_of_mem _ List.mem_cons_self
  obtain ⟨k, hk, hle⟩ := hfollowed.monotone (sampleChanged, sampleProvision 1)
    (hmem _ sampleSite (sampleChange 2026010101) (sampleProvision 1)) 2026010102
    serial_changed
  have hvalue : 2026010101 = k :=
    Option.some.inj (serial_provisioned.symm.trans hk)
  rw [← hvalue] at hle
  exact absurd hle (by decide)

example : keyText "a" "A" ≠ keyText "b" "A" := by decide +kernel

end Yunpanel.Dns.Publishing
