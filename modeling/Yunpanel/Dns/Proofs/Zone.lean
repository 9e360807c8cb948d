/-
What the zone manager reads and changes, RRset by RRset.

A zone says of a key the RRset with that key, so every result here is about
one key at a time. `Wanted` is what an RRset made from a record is; a patch
with the changes computed for wanted RRsets leaves, of each key, what
`outcome` says (`get_patched`). Snapshots of two zones are the same exactly
where they say the same of each key (`zoneSnapshot_eq_iff`).
-/
import Yunpanel.Dns.Proofs.Record
import Yunpanel.Dns.DesiredState

namespace Yunpanel.Dns

open Lib Lib.Keyed Lib.Result

variable {h : Host}

-- ====== texts

theorem toUpper_toUpper (c : Char) : c.toUpper.toUpper = c.toUpper := by
  have hcases : ∀ d : Char, d.toUpper = d
      ∨ (97 ≤ d.toNat ∧ d.toNat ≤ 122 ∧ d.toUpper.toNat + 32 = d.toNat) := by
    intro d
    by_cases hlow : d.val ≥ 'a'.val ∧ d.val ≤ 'z'.val
    · right
      have hrange : 97 ≤ d.toNat ∧ d.toNat ≤ 122 := hlow
      refine ⟨hrange.1, hrange.2, ?_⟩
      delta Char.toUpper
      rw [dif_pos hlow]
      show (d.val + ('A'.val - 'a'.val)).toNat + 32 = d.toNat
      rw [UInt32.toNat_add]
      have hval : d.val.toNat = d.toNat := rfl
      have hgap : ('A'.val - 'a'.val).toNat = 4294967264 := by decide
      omega
    · left
      delta Char.toUpper
      rw [dif_neg hlow]
  rcases hcases c with hsame | ⟨hlo, hhi, hupper⟩
  · rw [hsame, hsame]
  · rcases hcases c.toUpper with hsame' | ⟨hlo', -, -⟩
    · exact hsame'
    · omega

theorem lowerText_lowerText (s : String) :
    lowerText (lowerText s) = lowerText s := by
  unfold lowerText
  rw [String.toList_ofList, lower_lower]

theorem upperText_upperText (s : String) :
    upperText (upperText s) = upperText s := by
  unfold upperText upper
  rw [String.toList_ofList, List.map_map]
  exact congrArg String.ofList (List.map_congr_left fun c _ => toUpper_toUpper c)

variable {c : Char} {rrsets : List Rrset}

theorem toUpper_of_isUpper
    (hc : Text.isUpper c = true ∨ Text.isDigit c = true) : c.toUpper = c := by
  have hrange : c.toNat < 97 := by
    rcases hc with hc | hc
    · simp only [Text.isUpper, Bool.and_eq_true, decide_eq_true_eq,
        Char.le_def, UInt32.le_iff_toNat_le] at hc
      have : c.toNat ≤ 90 := hc.2
      omega
    · simp only [Text.isDigit, Bool.and_eq_true, decide_eq_true_eq,
        Char.le_def, UInt32.le_iff_toNat_le] at hc
      have : c.toNat ≤ 57 := hc.2
      omega
  delta Char.toUpper
  rw [dif_neg]
  rintro ⟨hlo, -⟩
  have hlo' : 97 ≤ c.toNat := hlo
  omega

theorem IsType.upperText {type : String} (htype : IsType type) :
    upperText type = type := by
  have hsame : type.toList.map Char.toUpper = type.toList := by
    rw [List.map_congr_left fun c hc => toUpper_of_isUpper (htype.printed c hc),
      List.map_id']
  unfold Dns.upperText upper
  rw [hsame, String.ofList_toList]

theorem isType_text (type : RecordType) : IsType type.text := by
  cases type <;>
    exact ⟨Text.forall_mem_of_all (by decide), by decide⟩

theorem IsName.lowerText {name : String} (hname : IsName name) :
    IsName (lowerText name) := by
  constructor
  · intro c hc
    unfold Dns.lowerText Text.lower at hc
    rw [String.toList_ofList] at hc
    obtain ⟨d, hd, rfl⟩ := List.mem_map.mp hc
    have hrange := hname.printed d hd
    rcases toLower_cases d with hsame | ⟨hlo, hhi, hlower⟩
    · rw [hsame]
      exact hrange
    · omega
  · have hdot : Char.toLower '.' = '.' := by decide
    unfold Dns.lowerText Text.lower
    rw [String.toList_ofList, List.getLast?_map, hname.absolute,
      Option.map_some, hdot]

-- ====== keys

theorem keyText_lower_upper (name type : String) :
    keyText (lowerText name) (upperText type) = keyText name type := by
  unfold keyText
  rw [lowerText_lowerText, upperText_upperText]

@[simp] theorem rrsetKey_normalized (rrset : Rrset) :
    rrsetKey (normalizedExistingRrset rrset) = rrsetKey rrset :=
  keyText_lower_upper rrset.name rrset.type

@[simp] theorem rrsetKey_snapshotRrset (rrset : Rrset) :
    rrsetKey (snapshotRrset h rrset) = rrsetKey rrset :=
  keyText_lower_upper rrset.name rrset.type

theorem normalized_normalized (rrset : Rrset) :
    normalizedExistingRrset (normalizedExistingRrset rrset)
      = normalizedExistingRrset rrset := by
  unfold normalizedExistingRrset
  dsimp only
  rw [lowerText_lowerText, upperText_upperText]

@[simp] theorem managed_normalized (rrset : Rrset) :
    managed h (normalizedExistingRrset rrset) = managed h rrset := rfl

/-- An RRset with a name and a type PowerDNS has. -/
structure Proper (rrset : Rrset) : Prop where
  name : IsName rrset.name
  type : IsType rrset.type

variable {rrset : Rrset} {record : Record}

theorem Proper.normalized (hp : Proper rrset) :
    Proper (normalizedExistingRrset rrset) := by
  refine ⟨hp.name.lowerText, ?_⟩
  show IsType (upperText rrset.type)
  rw [hp.type.upperText]
  exact hp.type

/-- Keys of proper RRsets are told apart by the collation. -/
theorem key_eq_of_localeLE {r s : Rrset} (hr : Proper r) (hs : Proper s)
    (hrs : h.localeLE (rrsetKey r) (rrsetKey s) = true)
    (hsr : h.localeLE (rrsetKey s) (rrsetKey r) = true) :
    rrsetKey r = rrsetKey s :=
  h.localeLE_keys _ _ _ _ hr.name hs.name hr.type hs.type hrs hsr

-- ====== comments

theorem parseManagedComment_commentFor (record : Record) :
    parseManagedComment h [commentFor h record]
      = some (recordMetadata record) := by
  have hprefix : commentPrefix.toList.isPrefixOf
      (commentFor h record).content.toList = true := by
    show commentPrefix.toList.isPrefixOf
      (commentPrefix ++ h.encodeMetadata (recordMetadata record)).toList = true
    rw [String.toList_append, List.isPrefixOf_iff_prefix]
    exact List.prefix_append _ _
  have hrest : (commentFor h record).content.toList.drop commentPrefix.length
      = (h.encodeMetadata (recordMetadata record)).toList := by
    show (commentPrefix ++ h.encodeMetadata (recordMetadata record)).toList.drop
      commentPrefix.length = _
    rw [String.toList_append, ← String.length_toList, List.drop_left]
  unfold parseManagedComment
  rw [List.findSome?_cons, if_pos ⟨rfl, hprefix⟩, hrest,
    String.ofList_toList, h.decode_encode]

/-- Whether an RRset is managed does not depend on the order of its
comments. -/
theorem parseManagedComment_eq_none_of_perm {as bs : List Comment}
    (hperm : as.Perm bs) :
    parseManagedComment h as = none ↔ parseManagedComment h bs = none := by
  unfold parseManagedComment
  rw [List.findSome?_eq_none_iff, List.findSome?_eq_none_iff]
  exact ⟨fun hall c hc => hall c (hperm.mem_iff.mpr hc),
    fun hall c hc => hall c (hperm.mem_iff.mp hc)⟩

theorem managed_snapshotRrset_eq_none (rrset : Rrset) :
    managed h (snapshotRrset h rrset) = none ↔ managed h rrset = none :=
  parseManagedComment_eq_none_of_perm (List.perm_insertionSort _ _)

-- ====== wanted

/-- What an RRset made from a record is. -/
structure Wanted (h : Host) (record : Record) (rrset : Rrset) : Prop where
  proper : Proper rrset
  normal : normalizedExistingRrset rrset = rrset
  managed : managed h rrset = some (recordMetadata record)

/-- A record whose owner is a normal name. -/
structure Owned (record : Record) : Prop where
  allowed : ∀ c ∈ record.owner.toList, isOwnerChar c = true
  relative : record.owner.toList.getLast? ≠ some '.'

theorem toNat_of_isOwnerChar (hc : isOwnerChar c = true) :
    (0x21 ≤ c.toNat ∧ c.toNat ≤ 0x7e) ∧ Text.isUpper c = false := by
  have hrange : (42 ≤ c.toNat ∧ c.toNat ≤ 57) ∨ (95 ≤ c.toNat ∧ c.toNat ≤ 122) := by
    simp only [isOwnerChar, Text.isDigit, Text.isLower, Bool.or_eq_true,
      Bool.and_eq_true, decide_eq_true_eq, beq_iff_eq, Char.le_def,
      UInt32.le_iff_toNat_le] at hc
    rcases hc with ((((hc | hc) | rfl) | rfl) | rfl) | rfl
    · have hlo : 48 ≤ c.toNat := hc.1
      have hhi : c.toNat ≤ 57 := hc.2
      omega
    · have hlo : 97 ≤ c.toNat := hc.1
      have hhi : c.toNat ≤ 122 := hc.2
      omega
    all_goals decide
  refine ⟨by omega, ?_⟩
  by_contra hup
  rw [Bool.not_eq_false] at hup
  simp only [Text.isUpper, Bool.and_eq_true, decide_eq_true_eq, Char.le_def,
    UInt32.le_iff_toNat_le] at hup
  have hlo : 65 ≤ c.toNat := hup.1
  have hhi : c.toNat ≤ 90 := hup.2
  omega

theorem Owned.owner (hrecord : Owned record) :
    String.ofList (Text.lower (Text.stripDot record.owner.toList))
      = record.owner := by
  rw [Text.stripDot, if_neg hrecord.relative,
    Text.lower_of_forall fun c hc =>
      (toNat_of_isOwnerChar (hrecord.allowed c hc)).2, String.ofList_toList]

theorem Owned.isName (hrecord : Owned record) :
    IsName (fqdnText record.owner) := by
  unfold fqdnText fqdn
  rw [Text.stripDot, if_neg hrecord.relative]
  constructor
  · intro c hc
    rw [String.toList_ofList] at hc
    rcases List.mem_append.mp hc with hc | hc
    · exact (toNat_of_isOwnerChar (hrecord.allowed c hc)).1
    · rw [List.mem_singleton.mp hc]
      decide
  · rw [String.toList_ofList, List.getLast?_append]
    rfl

theorem Owned.lowerText (hrecord : Owned record) :
    lowerText (fqdnText record.owner) = fqdnText record.owner := by
  unfold Dns.lowerText fqdnText fqdn
  rw [Text.stripDot, if_neg hrecord.relative, String.toList_ofList,
    Text.lower_of_forall]
  intro c hc
  rcases List.mem_append.mp hc with hc | hc
  · exact (toNat_of_isOwnerChar (hrecord.allowed c hc)).2
  · rw [List.mem_singleton.mp hc]
    decide

/-- What a record is turned into. -/
theorem desiredRrset_eq_ok (hrecord : Owned record)
    (hrrset : desiredRrset h record = .ok rrset) :
    rrset.name = fqdnText record.owner ∧ rrset.type = record.type.text
      ∧ record.values.mapM (entryOf record.type) = .ok rrset.records
      ∧ rrset.comments = [commentFor h record] := by
  obtain ⟨normalized, hnormalized, hrest⟩ := bind_eq_ok.mp hrrset
  obtain ⟨records, hrecords, hresult⟩ := bind_eq_ok.mp hrest
  unfold normalizeRecord at hnormalized
  split at hnormalized
  · cases hnormalized
  · obtain rfl := Except.ok.inj hnormalized
    obtain rfl := Except.ok.inj hresult
    dsimp only at hrecords ⊢
    rw [hrecord.owner]
    exact ⟨rfl, rfl, hrecords, rfl⟩

theorem wanted_of_desiredRrset (hrecord : Owned record)
    (hrrset : desiredRrset h record = .ok rrset) :
    Wanted h record rrset := by
  obtain ⟨hname, htype, -, hcomments⟩ := desiredRrset_eq_ok hrecord hrrset
  refine ⟨⟨?_, ?_⟩, ?_, ?_⟩
  · rw [hname]
    exact hrecord.isName
  · rw [htype]
    exact isType_text record.type
  · unfold normalizedExistingRrset
    rw [hname, htype, hrecord.lowerText, (isType_text record.type).upperText,
      ← hname, ← htype]
  · unfold managed
    rw [hcomments, parseManagedComment_commentFor]

/-- The RRsets of records are made one by one and have distinct keys. -/
theorem desiredMapFrom_eq_ok {conflict : Failure} {result : List Rrset}
    {records : List Record} (hnodup : (result.map rrsetKey).Nodup) :
    desiredMapFrom h conflict result records = .ok rrsets ↔
      ∃ wanted, List.Forall₂ (fun record rrset =>
          desiredRrset h record = .ok rrset) records wanted
        ∧ rrsets = result ++ wanted ∧ (rrsets.map rrsetKey).Nodup := by
  induction records generalizing result with
  | nil =>
      unfold desiredMapFrom
      constructor
      · intro hok
        obtain rfl := Except.ok.inj hok
        exact ⟨[], .nil, (List.append_nil result).symm, hnodup⟩
      · rintro ⟨wanted, hall, rfl, -⟩
        cases hall
        rw [List.append_nil]
  | cons record records ih =>
      unfold desiredMapFrom
      rw [bind_eq_ok]
      constructor
      · rintro ⟨rrset, hrrset, hrest⟩
        split at hrest
        · cases hrest
        · rename_i habsent
          rw [Bool.not_eq_true, Option.isSome_eq_false_iff,
            Option.isNone_iff_eq_none, get_eq_none] at habsent
          have hnext : ((result ++ [rrset]).map rrsetKey).Nodup := by
            rw [List.map_append, List.map_singleton]
            refine List.Nodup.append hnodup (List.nodup_singleton _) ?_
            intro k hk hone
            obtain ⟨r, hr, rfl⟩ := List.mem_map.mp hk
            exact habsent r hr (List.mem_singleton.mp hone)
          obtain ⟨wanted, hall, heq, hall'⟩ := (ih hnext).mp hrest
          refine ⟨rrset :: wanted, .cons hrrset hall, ?_, hall'⟩
          rw [heq, List.append_assoc, List.singleton_append]
      · rintro ⟨wanted, hall, rfl, hall'⟩
        cases hall with
        | cons hrrset hrest =>
            rename_i rrset wanted
            refine ⟨rrset, hrrset, ?_⟩
            have hnext : ((result ++ [rrset]) ++ wanted).map rrsetKey
                = (result ++ rrset :: wanted).map rrsetKey := by
              rw [List.append_assoc, List.singleton_append]
            have hnodup' : ((result ++ [rrset]).map rrsetKey).Nodup := by
              rw [← hnext, List.map_append] at hall'
              exact (List.nodup_append.mp hall').1
            have habsent : get rrsetKey result (rrsetKey rrset) = none := by
              refine get_eq_none.mpr fun r hr hkey => ?_
              rw [List.map_append, List.map_singleton] at hnodup'
              exact (List.nodup_append.mp hnodup').2.2 _
                (List.mem_map_of_mem hr) _ (List.mem_singleton_self _) hkey
            rw [habsent, if_neg (by decide)]
            refine (ih hnodup').mpr ⟨wanted, hrest, ?_, ?_⟩
            · rw [List.append_assoc, List.singleton_append]
            · exact hall'

-- ====== changes

section changes

variable {existing : Zone} {desired : List Rrset}

/-- Whether an RRset of the zone already is what is wanted. -/
def settled (h : Host) (wanted current : Rrset) : Bool :=
  sameRecords current wanted && sameManagedMetadata h current wanted

/-- What a patch leaves of a key. -/
def outcome (h : Host) (existing desired : List Rrset) (k : String) :
    Option Rrset :=
  match get rrsetKey desired k with
  | some wanted => some (((get rrsetKey existing k).filter
      (settled h wanted)).getD wanted)
  | none => (get rrsetKey existing k).filter fun current =>
      (managed h current).isNone

/-- The change of one desired RRset, where nothing manual is in its place. -/
def rewritten (h : Host) (existing : Zone) (wanted : Rrset) : Option Change :=
  if (get rrsetKey existing.rrsets (rrsetKey wanted)).any (settled h wanted) then
    none
  else some (.replace wanted)

variable {wanted : Rrset} {change : Option Change}

theorem changeFor_eq_ok :
    changeFor h existing false wanted = .ok change ↔
      (∀ current, get rrsetKey existing.rrsets (rrsetKey wanted)
        = some current → managed h current ≠ none)
      ∧ change = rewritten h existing wanted := by
  unfold changeFor rewritten
  cases hget : get rrsetKey existing.rrsets (rrsetKey wanted) with
  | none =>
      dsimp only
      rw [Option.any_none, if_neg (by decide)]
      constructor
      · exact fun hok => ⟨nofun, (Except.ok.inj hok).symm⟩
      · rintro ⟨-, rfl⟩
        rfl
  | some current =>
      dsimp only
      rw [Option.any_some, Bool.not_false, Bool.and_true]
      by_cases hmanaged : managed h current = none
      · rw [if_pos (by rw [hmanaged]; rfl)]
        exact iff_of_false nofun fun hall => hall.1 current rfl hmanaged
      · rw [if_neg (by rwa [Option.isNone_iff_eq_none])]
        have hall : ∀ c, some current = some c → managed h c ≠ none := by
          rintro c hc
          rwa [← Option.some.inj hc]
        have hfold : (sameRecords current wanted
            && sameManagedMetadata h current wanted)
            = settled h wanted current := rfl
        rw [hfold]
        by_cases hsame : settled h wanted current = true
        · rw [if_pos hsame, if_pos hsame]
          exact ⟨fun hok => ⟨hall, (Except.ok.inj hok).symm⟩,
            fun hc => by rw [hc.2]⟩
        · rw [if_neg hsame, if_neg hsame]
          exact ⟨fun hok => ⟨hall, (Except.ok.inj hok).symm⟩,
            fun hc => by rw [hc.2]⟩

/-- Nothing manual is in the place of what is desired. -/
def Unopposed (h : Host) (existing : Zone) (desired : List Rrset) : Prop :=
  ∀ wanted ∈ desired, ∀ current,
    get rrsetKey existing.rrsets (rrsetKey wanted) = some current →
    managed h current ≠ none

theorem changesFor_eq_ok {changes : List Change} :
    changesFor h existing desired = .ok changes ↔
      Unopposed h existing desired
      ∧ changes = desired.filterMap (rewritten h existing)
        ++ (obsolete h existing desired).map fun current =>
          .delete (rrsetKey current) := by
  unfold changesFor
  rw [bind_eq_ok]
  constructor
  · rintro ⟨opts, hopts, hresult⟩
    have hall := mapM_eq_ok_iff.mp hopts
    obtain ⟨hun, rfl⟩ := (forall₂_eq_map (P := fun wanted => ∀ current,
      get rrsetKey existing.rrsets (rrsetKey wanted) = some current →
        managed h current ≠ none) (f := rewritten h existing)).mp
        (hall.imp fun _ _ hok => changeFor_eq_ok.mp hok)
    refine ⟨hun, ?_⟩
    rw [← Except.ok.inj hresult, List.filterMap_map]
    rfl
  · rintro ⟨hun, rfl⟩
    refine ⟨desired.map (rewritten h existing), ?_, ?_⟩
    · refine mapM_eq_ok_iff.mpr ((forall₂_eq_map (P := fun wanted => ∀ current,
        get rrsetKey existing.rrsets (rrsetKey wanted) = some current →
          managed h current ≠ none)).mpr ⟨hun, rfl⟩ |>.imp ?_)
      exact fun _ _ hok => changeFor_eq_ok.mpr hok
    · rw [List.filterMap_map]
      rfl

/-- Whether manual RRsets may be replaced or not, what is rewritten is what
is not settled. -/
theorem change_of_changeFor {allow : Bool}
    (hok : changeFor h existing allow wanted = .ok change) :
    change = rewritten h existing wanted := by
  unfold changeFor at hok
  unfold rewritten
  cases hget : get rrsetKey existing.rrsets (rrsetKey wanted) with
  | none =>
      rw [hget] at hok
      rw [Option.any_none, if_neg (by decide)]
      exact (Except.ok.inj hok).symm
  | some current =>
      rw [hget] at hok
      dsimp only at hok
      obtain ⟨-, hok⟩ := guard_eq_ok.mp hok
      rw [Option.any_some]
      by_cases hsame : settled h wanted current = true
      · rw [if_pos hsame]
        rw [if_pos (show (sameRecords current wanted
          && sameManagedMetadata h current wanted) = true from hsame)] at hok
        exact (Except.ok.inj hok).symm
      · rw [if_neg hsame]
        rw [if_neg (show ¬(sameRecords current wanted
          && sameManagedMetadata h current wanted) = true from hsame)] at hok
        exact (Except.ok.inj hok).symm

theorem changes_of_changesFor {allow : Bool} {changes : List Change}
    (hok : changesFor h existing desired allow = .ok changes) :
    changes = desired.filterMap (rewritten h existing)
      ++ (obsolete h existing desired).map fun current =>
        .delete (rrsetKey current) := by
  obtain ⟨opts, hopts, hresult⟩ := bind_eq_ok.mp hok
  have hall := mapM_eq_ok_iff.mp hopts
  obtain ⟨-, rfl⟩ := (forall₂_eq_map (P := fun _ => True)
    (f := rewritten h existing)).mp
      (hall.imp fun _ _ hone => ⟨trivial, change_of_changeFor hone⟩)
  rw [← Except.ok.inj hresult, List.filterMap_map]
  rfl

/-- What is written is wanted. -/
theorem mem_of_replace
    (hmem : Keyed.Change.replace rrset ∈ desired.filterMap (rewritten h existing)
      ++ (obsolete h existing desired).map fun current =>
        .delete (rrsetKey current)) :
    rrset ∈ desired := by
  rcases List.mem_append.mp hmem with hmem | hmem
  · obtain ⟨wanted, hwanted, hrewritten⟩ := List.mem_filterMap.mp hmem
    unfold rewritten at hrewritten
    split at hrewritten
    · cases hrewritten
    · cases hrewritten
      exact hwanted
  · obtain ⟨current, -, hdelete⟩ := List.mem_map.mp hmem
    cases hdelete

theorem key_rewritten {change : Change}
    (hc : rewritten h existing wanted = some change) :
    change.key rrsetKey = rrsetKey wanted := by
  unfold rewritten at hc
  split at hc
  · cases hc
  · obtain rfl := Option.some.inj hc
    rfl

theorem nodup_rrsets (zoneName : String) (hosted : Hosted) :
    ((readZone zoneName hosted).rrsets.map rrsetKey).Nodup := by
  show ((hosted.rrsets.map normalizedExistingRrset).map rrsetKey).Nodup
  have hcomp : rrsetKey ∘ normalizedExistingRrset = rrsetKey :=
    funext rrsetKey_normalized
  rw [List.map_map, hcomp]
  exact hosted.distinct

theorem get_readZone (zoneName : String) (hosted : Hosted) (k : String) :
    get rrsetKey (readZone zoneName hosted).rrsets k
      = (get rrsetKey hosted.rrsets k).map normalizedExistingRrset :=
  get_map rrsetKey_normalized hosted.rrsets k

theorem nodup_obsolete (hexisting : (existing.rrsets.map rrsetKey).Nodup) :
    ((obsolete h existing desired).map rrsetKey).Nodup :=
  hexisting.sublist (List.Sublist.map rrsetKey List.filter_sublist)

/-- The RRsets of the zone that are to go. -/
theorem get_obsolete (hexisting : (existing.rrsets.map rrsetKey).Nodup)
    (k : String) :
    get rrsetKey (obsolete h existing desired) k
      = if (get rrsetKey desired k).isNone then
          (get rrsetKey existing.rrsets k).filter fun current =>
            (managed h current).isSome
        else none := by
  unfold obsolete
  rw [get_filter hexisting]
  cases hget : get rrsetKey existing.rrsets k with
  | none => simp
  | some current =>
      have hk := key_of_get hget
      rw [Option.filter_some, Option.filter_some, hk]
      cases get rrsetKey desired k with
      | none => simp
      | some wanted => simp

/-- The one change there is for a key. -/
theorem get_changes (hexisting : (existing.rrsets.map rrsetKey).Nodup)
    (hdesired : (desired.map rrsetKey).Nodup) (k : String) :
    get (Change.key rrsetKey) (desired.filterMap (rewritten h existing)
        ++ (obsolete h existing desired).map fun current =>
          .delete (rrsetKey current)) k
      = match get rrsetKey desired k with
        | some wanted => rewritten h existing wanted
        | none => ((get rrsetKey existing.rrsets k).filter fun current =>
            (managed h current).isSome).map fun _ => .delete k := by
  have hdelete : get (Change.key rrsetKey)
      ((obsolete h existing desired).map fun current =>
        (.delete (rrsetKey current) : Change)) k
      = (get rrsetKey (obsolete h existing desired) k).map
          fun current => .delete (rrsetKey current) := by
    have hsame : ∀ current ∈ obsolete h existing desired, ∀ change : Change,
        (some ∘ fun current => .delete (rrsetKey current)) current
          = some change → change.key rrsetKey = rrsetKey current := by
      rintro current - change hc
      rw [← Option.some.inj hc]
      rfl
    rw [← List.filterMap_eq_map, get_filterMap hsame (nodup_obsolete hexisting),
      Option.map_eq_bind]
  rw [get_append, get_filterMap (fun _ _ _ => key_rewritten) hdesired, hdelete,
    get_obsolete hexisting]
  cases hget : get rrsetKey desired k with
  | none =>
      cases hcur : get rrsetKey existing.rrsets k with
      | none => rfl
      | some current =>
          cases hmanaged : managed h current with
          | none => simp [Option.filter_some, hmanaged]
          | some there => simp [Option.filter_some, hmanaged, key_of_get hcur]
  | some wanted => simp

theorem nodup_changes (hexisting : (existing.rrsets.map rrsetKey).Nodup)
    (hdesired : (desired.map rrsetKey).Nodup) :
    ((desired.filterMap (rewritten h existing)
        ++ (obsolete h existing desired).map fun current =>
          (.delete (rrsetKey current) : Change)).map
        (Change.key rrsetKey)).Nodup := by
  rw [List.map_append, List.map_map]
  refine List.Nodup.append
    (nodup_filterMap (fun _ _ _ => key_rewritten) hdesired)
    (nodup_obsolete hexisting) ?_
  intro k hk hobsolete
  obtain ⟨change, hchange, hkey⟩ := List.mem_map.mp hk
  obtain ⟨wanted, hwanted, hrewritten⟩ := List.mem_filterMap.mp hchange
  obtain ⟨current, hcurrent, hkey'⟩ := List.mem_map.mp hobsolete
  have habsent := (List.mem_filter.mp hcurrent).2
  rw [Bool.and_eq_true, Option.isNone_iff_eq_none, get_eq_none] at habsent
  have hsame : rrsetKey current = rrsetKey wanted :=
    hkey'.trans (hkey.symm.trans (key_rewritten hrewritten))
  exact habsent.1 wanted hwanted hsame.symm

end changes

-- ====== PATCH

/-- What a zone is after a `PATCH`, whatever order its RRsets are listed
in. -/
structure Patched (before : Hosted) (changes : List Change) (after : Hosted) :
    Prop where
  id : after.id = before.id
  kind : after.kind = before.kind
  dnssec : after.dnssec = before.dnssec
  rrsets : after.rrsets.Perm (patch rrsetKey before.rrsets changes)

/-- A patch with the changes for what is desired leaves what `outcome`
says. -/
theorem get_patched {zoneName : String} {before after : Hosted} {allow : Bool}
    {desired : List Rrset} {changes : List Change}
    (hdesired : (desired.map rrsetKey).Nodup)
    (hnormal : ∀ wanted ∈ desired, normalizedExistingRrset wanted = wanted)
    (hchanges : changesFor h (readZone zoneName before) desired allow
      = .ok changes)
    (hpatched : Patched before changes after) (k : String) :
    get rrsetKey (readZone zoneName after).rrsets k
      = outcome h (readZone zoneName before).rrsets desired k := by
  obtain rfl := changes_of_changesFor hchanges
  have hexisting := nodup_rrsets zoneName before
  rw [get_readZone, get_perm after.distinct hpatched.rrsets,
    get_patch (nodup_changes hexisting hdesired),
    get_changes hexisting hdesired]
  have hread := get_readZone zoneName before k
  unfold outcome
  cases hget : get rrsetKey desired k with
  | none =>
      dsimp only
      rw [hread]
      cases hcur : get rrsetKey before.rrsets k with
      | none => rfl
      | some current =>
          rw [Option.map_some, Option.filter_some, Option.filter_some,
            managed_normalized]
          cases managed h current with
          | none => rfl
          | some there => rfl
  | some wanted =>
      dsimp only
      have hkey := key_of_get hget
      have hsame := hnormal wanted (mem_of_get hget)
      unfold rewritten
      rw [hkey, hread]
      cases hcur : get rrsetKey before.rrsets k with
      | none =>
          rw [Option.map_none, Option.any_none, if_neg (by decide)]
          show (some wanted).map normalizedExistingRrset = _
          rw [Option.map_some, hsame]
          rfl
      | some current =>
          rw [Option.map_some, Option.any_some, Option.filter_some]
          by_cases hset : settled h wanted (normalizedExistingRrset current) = true
          · rw [if_pos hset, if_pos hset]
            rfl
          · rw [if_neg hset, if_neg hset]
            show (some wanted).map normalizedExistingRrset = _
            rw [Option.map_some, hsame]
            rfl

-- ====== snapshots

section snapshots

theorem sortBy_perm {α : Type} (text : α → String) (values : List α) :
    (sortBy h text values).Perm values :=
  List.perm_insertionSort _ _

theorem sortBy_sortBy {α : Type} (text : α → String) (values : List α) :
    sortBy h text (sortBy h text values) = sortBy h text values := by
  have htotal : Std.Total fun a b : α => h.localeLE (text a) (text b) = true :=
    ⟨fun a b => h.localeLE_total (text a) (text b)⟩
  have htrans : IsTrans α fun a b => h.localeLE (text a) (text b) = true :=
    ⟨fun a b c => h.localeLE_trans (text a) (text b) (text c)⟩
  exact (List.pairwise_insertionSort _ values).insertionSort_eq

theorem snapshotRrset_snapshotRrset (rrset : Rrset) :
    snapshotRrset h (snapshotRrset h rrset) = snapshotRrset h rrset := by
  unfold snapshotRrset normalizedExistingRrset
  dsimp only
  rw [lowerText_lowerText, upperText_upperText, sortBy_sortBy, sortBy_sortBy]

theorem Proper.snapshotRrset (hp : Proper rrset) :
    Proper (snapshotRrset h rrset) :=
  ⟨hp.normalized.name, hp.normalized.type⟩

/-- Sorted by their keys, RRsets are the same list where they say the same
of each key. -/
theorem sortBy_rrsetKey_eq_iff {as bs : List Rrset}
    (ha : (as.map rrsetKey).Nodup) (hb : (bs.map rrsetKey).Nodup)
    (hproper : ∀ rrset ∈ as, Proper rrset) :
    sortBy h rrsetKey as = sortBy h rrsetKey bs ↔
      ∀ k, get rrsetKey as k = get rrsetKey bs k := by
  constructor
  · intro hsort
    have hperm : as.Perm bs :=
      (sortBy_perm rrsetKey as).symm.trans (hsort ▸ sortBy_perm rrsetKey bs)
    exact fun k => get_perm ha hperm k
  · intro hget
    refine sort_eq_of_perm (r := fun a b => h.localeLE a b = true)
      h.localeLE_total h.localeLE_trans ha ?_ (perm_of_get ha hb hget)
    intro r hr s hs hrs hsr
    exact key_eq_of_localeLE (hproper r hr) (hproper s hs) hrs hsr

theorem nodup_map_snapshotRrset (hnodup : (rrsets.map rrsetKey).Nodup) :
    ((rrsets.map (snapshotRrset h)).map rrsetKey).Nodup := by
  have hcomp : rrsetKey ∘ snapshotRrset h = rrsetKey :=
    funext rrsetKey_snapshotRrset
  rwa [List.map_map, hcomp]

theorem get_map_snapshotRrset (rrsets : List Rrset) (k : String) :
    get rrsetKey (rrsets.map (snapshotRrset h)) k
      = (get rrsetKey rrsets k).map (snapshotRrset h) :=
  get_map rrsetKey_snapshotRrset rrsets k

end snapshots

-- ====== samples

/-- Metadata of the samples, and the texts they have in a comment. -/
def sampleTexts : List (Managed × String) := [
  (⟨"template", "zone-soa", some 1⟩,
    "eyJzb3VyY2UiOiJ0ZW1wbGF0ZSIsImtleSI6InpvbmUtc29hIiwidGVtcGxhdGVWZXJzaW9uIjoxfQ"),
  (⟨"template", "note", some 1⟩,
    "eyJzb3VyY2UiOiJ0ZW1wbGF0ZSIsImtleSI6Im5vdGUiLCJ0ZW1wbGF0ZVZlcnNpb24iOjF9"),
  (⟨"template", "mark", some 1⟩,
    "eyJzb3VyY2UiOiJ0ZW1wbGF0ZSIsImtleSI6Im1hcmsiLCJ0ZW1wbGF0ZVZlcnNpb24iOjF9")]

/-- A word with a sign before each character and a dot at its end. -/
def spelled (word : List Char) (rest : List Char) : List Char :=
  match word with
  | [] => '.' :: rest
  | c :: cs => '+' :: c :: spelled cs rest

def readSpelled : List Char → Option (List Char × List Char)
  | '.' :: rest => some ([], rest)
  | '+' :: c :: cs => (readSpelled cs).map fun read => (c :: read.1, read.2)
  | _ => none

theorem readSpelled_spelled (word rest : List Char) :
    readSpelled (spelled word rest) = some (word, rest) := by
  induction word with
  | nil => rfl
  | cons c cs ih =>
      show (readSpelled (spelled cs rest)).map _ = _
      rw [ih]
      rfl

def spelledVersion : Option Int → List Char
  | none => ['n']
  | some (.ofNat n) => '0' :: List.replicate n '|'
  | some (.negSucc n) => '-' :: List.replicate n '|'

def readVersion : List Char → Option (Option Int)
  | '0' :: bars => some (some (.ofNat bars.length))
  | '-' :: bars => some (some (.negSucc bars.length))
  | _ => some none

theorem readVersion_spelled (version : Option Int) :
    readVersion (spelledVersion version) = some version := by
  rcases version with - | n | n <;> simp [spelledVersion, readVersion]

/-- The text of any other metadata. -/
def spelledMetadata (m : Managed) : List Char :=
  spelled m.source.toList (spelled m.key.toList (spelledVersion m.templateVersion))

def readMetadata (text : List Char) : Option Managed := do
  let (source, rest) ← readSpelled text
  let (key, rest) ← readSpelled rest
  let templateVersion ← readVersion rest
  return {
    source := String.ofList source
    key := String.ofList key
    templateVersion := templateVersion }

theorem readMetadata_spelled (m : Managed) :
    readMetadata (spelledMetadata m) = some m := by
  unfold readMetadata spelledMetadata
  rw [readSpelled_spelled, Option.bind_eq_bind, Option.bind_some]
  dsimp only
  rw [readSpelled_spelled, Option.bind_eq_bind, Option.bind_some]
  dsimp only
  rw [readVersion_spelled, Option.bind_some, String.ofList_toList,
    String.ofList_toList]
  rfl

def sampleEncode (m : Managed) : String :=
  ((sampleTexts.find? fun entry => entry.1 = m).map Prod.snd).getD
    (String.ofList (spelledMetadata m))

def sampleDecode (text : String) : Option Managed :=
  match sampleTexts.find? fun entry => entry.2 = text with
  | some entry => some entry.1
  | none => readMetadata text.toList

theorem sampleDecode_encode (m : Managed) :
    sampleDecode (sampleEncode m) = some m := by
  have hknown : ∀ entry ∈ sampleTexts,
      sampleDecode entry.2 = some entry.1 := by decide +kernel
  have hletter : ∀ entry ∈ sampleTexts, entry.2.toList.head? = some 'e' := by
    decide +kernel
  unfold sampleEncode
  cases hfind : sampleTexts.find? fun entry => entry.1 = m with
  | some entry =>
      have hsame : entry.1 = m := by simpa using List.find?_some hfind
      rw [Option.map_some, Option.getD_some, ← hsame]
      exact hknown entry (List.mem_of_find?_eq_some hfind)
  | none =>
      rw [Option.map_none, Option.getD_none]
      have hhead : (spelledMetadata m).head? ≠ some 'e' := by
        unfold spelledMetadata
        cases m.source.toList with
        | nil => simp [spelled]
        | cons c cs => simp [spelled]
      have hother : sampleTexts.find? (fun entry =>
          entry.2 = String.ofList (spelledMetadata m)) = none := by
        rw [List.find?_eq_none]
        intro entry hentry hsame
        rw [decide_eq_true_eq] at hsame
        apply hhead
        rw [← String.toList_ofList (l := spelledMetadata m), ← hsame]
        exact hletter entry hentry
      unfold sampleDecode
      rw [hother]
      dsimp only
      rw [String.toList_ofList, readMetadata_spelled]

/-- Texts by the numbers of their characters. -/
def sampleLE (a b : String) : Bool :=
  decide (a.toList.map Char.toNat ≤ b.toList.map Char.toNat)

/-- A host for the samples, whose collation is that of plain texts. -/
def sampleHost : Host where
  toPlatform := namesPlatform
  sha256 := fun _ => ""
  localeLE := sampleLE
  encodeMetadata := sampleEncode
  decodeMetadata := sampleDecode
  localeLE_total := by
    intro a b
    unfold sampleLE
    rw [decide_eq_true_eq, decide_eq_true_eq]
    exact le_total _ _
  localeLE_trans := by
    intro a b c
    unfold sampleLE
    rw [decide_eq_true_eq, decide_eq_true_eq, decide_eq_true_eq]
    exact le_trans
  localeLE_keys := by
    intro m n s t _ _ _ _ hab hba
    unfold sampleLE at hab hba
    rw [decide_eq_true_eq] at hab hba
    have hinj : Function.Injective Char.toNat := fun _ _ => Char.toNat_inj.mp
    exact String.toList_inj.mp (hinj.list_map (le_antisymm hab hba))
  decode_encode := sampleDecode_encode

example : keyText "a" "A" ≠ keyText "a" "B" := by decide +kernel

end Yunpanel.Dns
