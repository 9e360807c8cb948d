/-
What the loader of the certificate store takes, and of which versions.

A record that is read back is `Sound`, and a sound one is read back as it
is. A record of an earlier version that was valid then is sound once the
defaults are in (`ValidAt.sound`), whichever version it is of; but the list
of the versions that are taken is a list of its own, and the sixth is not
on it.
-/
import Yunpanel.Certificates.Certificate
import Yunpanel.Domains.Proofs.Runs
import Yunpanel.Lib.Result

namespace Yunpanel.Certificates

open Lib
open Domains (Net)

variable {net : Net} {roots : Roots} {c c' : Certificate}

variable {e : Failure} {u : Unit} {domain name : String} {dns : Bool}
  {source : Source} {challenge : Option Challenge} {version : Nat}
  {stored : List Certificate}

theorem ensure_eq_ok {condition : Bool} :
    ensure e condition = .ok u ↔ condition = true := by
  cases condition <;> simp [ensure]

theorem demand_eq_ok {α : Type} {x : Option α} {a : α} :
    demand e x = .ok a ↔ x = some a := by
  cases x <;> simp [demand]

-- ====== names

theorem isWildcard_of_mem (h : isWildcard domain = true) :
    '*' ∈ domain.toList := by
  obtain ⟨rest, hrest⟩ := List.isPrefixOf_iff_prefix.mp h
  rw [← hrest]
  simp

/-- A host name is a name of a certificate as it is. -/
theorem normalizeCertificateName_of_isHostname
    (h : Domains.IsHostname net name) :
    normalizeCertificateName net name = some name
      ∧ isWildcard name = false := by
  have hname := ((Domains.assertDomainName_eq_ok net).mp h).2
  have hplain : isWildcard name = false := by
    rw [← Bool.not_eq_true]
    exact fun hwild => hname.noStar (isWildcard_of_mem hwild)
  have hstar : ¬name.toList.contains '*' = true := by
    rw [List.contains_iff_mem]
    exact hname.noStar
  refine ⟨?_, hplain⟩
  unfold normalizeCertificateName
  rw [hplain, if_neg Bool.false_ne_true, if_neg hstar,
    show Domains.assertDomainName net name = .ok name from h]
  rfl

/-- What one name is normalized to is left alone from then on. -/
theorem normalizeCertificateName_stable
    (h : normalizeCertificateName net domain = some name) :
    normalizeCertificateName net name = some name := by
  unfold normalizeCertificateName at h
  split at h
  · split at h
    · rename_i base hbase
      obtain rfl := Option.some.inj h
      have hwild : isWildcard ("*." ++ base) = true := by
        unfold isWildcard
        rw [String.toList_append]
        rfl
      have hrest : String.ofList (("*." ++ base).toList.drop 2) = base := by
        rw [String.toList_append]
        exact String.ofList_toList
      unfold normalizeCertificateName
      rw [if_pos hwild, hrest, Domains.isHostname_of_assert net hbase]
    · cases h
  · split at h
    · cases h
    · have hok : Domains.assertDomainName net domain = .ok name := by
        cases hassert : Domains.assertDomainName net domain with
        | error e =>
            rw [hassert] at h
            cases h
        | ok other =>
            rw [hassert] at h
            rw [Option.some.inj h]
      have hhost := Domains.isHostname_of_assert net hok
      exact (normalizeCertificateName_of_isHostname hhost).1

variable {domains names : List String}

theorem normalizeCertificateNames_eq_ok :
    normalizeCertificateNames net domains dns = .ok names ↔
      (1 ≤ domains.length ∧ domains.length ≤ 21)
        ∧ domains.mapM (normalizeCertificateName net) = some names
        ∧ names.Nodup ∧ names.head?.any isWildcard = false
        ∧ (names.any isWildcard = true → dns = true) := by
  unfold normalizeCertificateNames
  simp only [Result.bind_eq_ok, ensure_eq_ok, demand_eq_ok,
    Bool.and_eq_true, decide_eq_true_eq, Bool.or_eq_true,
    Bool.not_eq_true']
  constructor
  · rintro ⟨_, hlength, values, hmap, _, ⟨hnodup, hhead⟩, _, hdns, hnames⟩
    obtain rfl := Except.ok.inj hnames
    refine ⟨hlength, hmap, hnodup, hhead, fun hwild => ?_⟩
    rw [hwild] at hdns
    simpa using hdns
  · rintro ⟨hlength, hmap, hnodup, hhead, hdns⟩
    refine ⟨(), hlength, names, hmap, (), ⟨hnodup, hhead⟩, (), ?_, rfl⟩
    cases hwild : names.any isWildcard with
    | false => exact .inl rfl
    | true => exact .inr (hdns hwild)

/-- The names of a certificate that were normalized are left alone. -/
theorem normalizeCertificateNames_stable
    (h : normalizeCertificateNames net domains dns = .ok names) :
    normalizeCertificateNames net names dns = .ok names := by
  obtain ⟨hlength, hmap, hchecks⟩ := normalizeCertificateNames_eq_ok.mp h
  rw [Result.mapM_eq_some_iff] at hmap
  refine normalizeCertificateNames_eq_ok.mpr ⟨?_, ?_, hchecks⟩
  · rw [← hmap.length_eq]
    exact hlength
  · rw [Result.mapM_eq_some_iff, List.forall₂_same]
    intro name hname
    obtain ⟨domain, -, hdomain⟩ := Result.exists_of_forall₂ hmap hname
    exact normalizeCertificateName_stable hdomain

-- ====== domains

theorem nodup_of_normalizeAliases {seen aliases : List String}
    (h : Domains.normalizeAliases net seen names = .ok aliases) :
    aliases.Nodup ∧ ∀ name ∈ aliases, name ∉ seen := by
  induction names generalizing seen aliases with
  | nil =>
      obtain rfl := Except.ok.inj h
      exact ⟨List.nodup_nil, fun name hname => by cases hname⟩
  | cons name rest ih =>
      rw [Domains.normalizeAliases] at h
      obtain ⟨normalized, -, h⟩ := Result.bind_eq_ok.mp h
      split at h
      · exact ih h
      · rename_i hnew
        obtain ⟨others, hothers, h⟩ := Result.bind_eq_ok.mp h
        obtain rfl := Except.ok.inj h
        obtain ⟨hnodup, hfresh⟩ := ih hothers
        refine ⟨List.nodup_cons.mpr ⟨?_, hnodup⟩, fun other hother => ?_⟩
        · exact fun hmem => hfresh normalized hmem List.mem_cons_self
        · rcases List.mem_cons.mp hother with rfl | hother
          · exact hnew
          · exact fun hmem =>
              hfresh other hother (List.mem_cons_of_mem normalized hmem)

/-- The domains of a certificate are host names, each there once, and no
more than a certificate may have names. -/
theorem normalizeDomains_spec (h : normalizeDomains net domains = .ok names) :
    (∀ name ∈ names, Domains.IsHostname net name) ∧ names.Nodup
      ∧ 1 ≤ names.length ∧ names.length ≤ 21 := by
  unfold normalizeDomains at h
  split at h
  · cases h
  · rename_i primary aliases
    rw [Result.guard_eq_ok] at h
    obtain ⟨-, h⟩ := h
    split at h
    · rename_i set hset
      obtain rfl := Except.ok.inj h
      obtain ⟨hprimary, haliases⟩ :=
        Domains.isHostname_of_normalizeDomains net hset
      rw [Domains.normalizeDomains] at hset
      obtain ⟨primary', -, hset⟩ := Result.bind_eq_ok.mp hset
      obtain ⟨aliases', hnormalized, hset⟩ := Result.bind_eq_ok.mp hset
      obtain ⟨hlength, hset⟩ := Result.guard_eq_ok.mp hset
      obtain rfl := Except.ok.inj hset
      obtain ⟨hnodup, hfresh⟩ := nodup_of_normalizeAliases hnormalized
      refine ⟨?_, ?_, ?_, ?_⟩
      · exact List.forall_mem_cons.mpr ⟨hprimary, haliases⟩
      · refine List.nodup_cons.mpr ⟨fun hmem => ?_, hnodup⟩
        exact hfresh _ hmem List.mem_cons_self
      · exact Nat.le_add_left 1 _
      · show aliases'.length + 1 ≤ 21
        omega
    · cases h

/-- Domains are names of a certificate as they are. -/
theorem normalizeCertificateNames_of_domains
    (h : normalizeDomains net domains = .ok names) (dns : Bool) :
    normalizeCertificateNames net names dns = .ok names := by
  obtain ⟨hhost, hnodup, hlo, hhi⟩ := normalizeDomains_spec h
  have hplain : ∀ name ∈ names, isWildcard name = false := fun name hname =>
    (normalizeCertificateName_of_isHostname (hhost name hname)).2
  refine normalizeCertificateNames_eq_ok.mpr
    ⟨⟨hlo, hhi⟩, ?_, hnodup, ?_, fun hwild => ?_⟩
  · rw [Result.mapM_eq_some_iff, List.forall₂_same]
    exact fun name hname =>
      (normalizeCertificateName_of_isHostname (hhost name hname)).1
  · cases names with
    | nil => rfl
    | cons name rest => exact hplain name List.mem_cons_self
  · obtain ⟨name, hname, hwild⟩ := List.any_eq_true.mp hwild
    rw [hplain name hname] at hwild
    cases hwild

-- ====== paths

/-- The three paths of a certificate are those of its directory. -/
def HasPaths (roots : Roots) (c : Certificate) : Prop :=
  c.certificatePath = some (c.expectedPath roots "cert.pem")
    ∧ c.fullchainPath = some (c.expectedPath roots "fullchain.pem")
    ∧ c.privateKeyPath = some (c.expectedPath roots "privkey.pem")

instance (roots : Roots) (c : Certificate) : Decidable (HasPaths roots c) :=
  inferInstanceAs (Decidable (_ ∧ _))

theorem validateCertificatePath_eq_ok {value : Option String}
    {file path : String} :
    validateCertificatePath roots c value file = .ok path ↔
      value = some path ∧ path = c.expectedPath roots file := by
  unfold validateCertificatePath
  simp only [Result.bind_eq_ok, demand_eq_ok, ensure_eq_ok, beq_iff_eq]
  constructor
  · rintro ⟨other, hvalue, _, hexpected, hpath⟩
    obtain rfl := Except.ok.inj hpath
    exact ⟨hvalue, hexpected⟩
  · rintro ⟨hvalue, hexpected⟩
    exact ⟨path, hvalue, (), hexpected, rfl⟩

theorem validatePaths_eq_ok :
    validatePaths roots c = .ok u ↔ HasPaths roots c := by
  unfold validatePaths HasPaths
  simp only [Result.bind_eq_ok, validateCertificatePath_eq_ok]
  constructor
  · rintro ⟨_, ⟨hcert, rfl⟩, _, ⟨hchain, rfl⟩, _, ⟨hkey, rfl⟩, -⟩
    exact ⟨hcert, hchain, hkey⟩
  · rintro ⟨hcert, hchain, hkey⟩
    exact ⟨_, ⟨hcert, rfl⟩, _, ⟨hchain, rfl⟩, _, ⟨hkey, rfl⟩, rfl⟩

-- ====== soundness

/-- What a record has to be to be read back. -/
structure Sound (net : Net) (roots : Roots) (c : Certificate) : Prop where
  purge : c.materialPurgedAt = none ∨ c.state = .retired
  provisioning : c.provisioningOperationId.all isSafeOperationId = true
  policy : c.renewalMode = c.source.mode
  retirement : c.retirementAgrees = true
  identity : c.source = .custom → isUuid c.id = true
  challenge : c.challenge.isSome = true ↔ c.source = .acme
  names : normalizeCertificateNames net c.certificateNames
    (Challenge.isDns c.challenge) = .ok c.certificateNames
  material : c.materialState.isMaterial = true → HasPaths roots c

theorem challenge_of_normalizeChallenge {challenge' : Option Challenge}
    (h : normalizeChallenge (source == .custom) challenge = .ok challenge') :
    challenge'.isSome = true ↔ source = .acme := by
  cases source with
  | acme =>
      obtain rfl := Except.ok.inj h
      simp
  | custom =>
      cases challenge with
      | none =>
          obtain rfl := Except.ok.inj h
          simp
      | some challenge => cases h

theorem normalizeChallenge_of_agrees
    (h : challenge.isSome = true ↔ source = .acme) :
    normalizeChallenge (source == .custom) challenge = .ok challenge := by
  cases source with
  | acme =>
      obtain ⟨challenge, rfl⟩ := Option.isSome_iff_exists.mp (h.mpr rfl)
      rfl
  | custom =>
      cases challenge with
      | none => rfl
      | some challenge => cases h.mp rfl

/-- What is read back is sound. -/
theorem sound_of_check (h : checkCertificate net roots c = .ok c') :
    Sound net roots c' := by
  unfold checkCertificate at h
  obtain ⟨_, hpurge, h⟩ := Result.bind_eq_ok.mp h
  obtain ⟨_, hprovisioning, h⟩ := Result.bind_eq_ok.mp h
  obtain ⟨_, hpolicy, h⟩ := Result.bind_eq_ok.mp h
  obtain ⟨_, hretirement, h⟩ := Result.bind_eq_ok.mp h
  obtain ⟨_, hidentity, h⟩ := Result.bind_eq_ok.mp h
  obtain ⟨challenge, hchallenge, h⟩ := Result.bind_eq_ok.mp h
  obtain ⟨names, hnames, h⟩ := Result.bind_eq_ok.mp h
  rw [ensure_eq_ok] at hpurge hprovisioning hpolicy hretirement hidentity
  have hmaterial : c' = { c with challenge, certificateNames := names }
      ∧ (c'.materialState.isMaterial = true → HasPaths roots c') := by
    dsimp only at h
    split at h
    · obtain ⟨_, hpaths, h⟩ := Result.bind_eq_ok.mp h
      obtain rfl := Except.ok.inj h
      exact ⟨rfl, fun _ => validatePaths_eq_ok.mp hpaths⟩
    · rename_i hnone
      obtain rfl := Except.ok.inj h
      exact ⟨rfl, fun hsome => absurd hsome hnone⟩
  obtain ⟨rfl, hmaterial⟩ := hmaterial
  rw [Bool.or_eq_true, Option.isNone_iff_eq_none, beq_iff_eq] at hpurge
  rw [Bool.or_eq_true, bne_iff_ne] at hidentity
  exact ⟨hpurge, hprovisioning, beq_iff_eq.mp hpolicy, hretirement,
    fun hcustom => hidentity.resolve_left (fun hne => hne hcustom),
    challenge_of_normalizeChallenge hchallenge,
    normalizeCertificateNames_stable hnames, hmaterial⟩

/-- A sound record is read back as it is. -/
theorem Sound.check (h : Sound net roots c) :
    checkCertificate net roots c = .ok c := by
  have hpurge : (c.materialPurgedAt.isNone || c.state == .retired)
      = true := by
    rw [Bool.or_eq_true, Option.isNone_iff_eq_none, beq_iff_eq]
    exact h.purge
  have hidentity : (c.source != .custom || isUuid c.id) = true := by
    rw [Bool.or_eq_true, bne_iff_ne]
    by_cases hcustom : c.source = .custom
    · exact .inr (h.identity hcustom)
    · exact .inl hcustom
  unfold checkCertificate
  simp only [Result.bind_eq_ok, ensure_eq_ok]
  refine ⟨(), hpurge, (), h.provisioning, (), beq_iff_eq.mpr h.policy, (),
    h.retirement, (), hidentity, c.challenge,
    normalizeChallenge_of_agrees h.challenge, c.certificateNames, h.names, ?_⟩
  split
  · rename_i hmaterial
    have hpaths : validatePaths roots c = .ok () :=
      validatePaths_eq_ok.mpr (h.material hmaterial)
    exact Result.bind_eq_ok.mpr ⟨(), hpaths, rfl⟩
  · rfl

theorem init_eq_ok {certs : List Certificate} :
    init net roots version stored = .ok certs ↔
      [1, 2, 3, 4, 5, storeVersion].contains version = true
        ∧ List.Forall₂ (fun c c' => hydrateCertificate net roots version c
          = .ok c') stored certs := by
  unfold init
  simp only [Result.bind_eq_ok, ensure_eq_ok, Result.mapM_eq_ok_iff]
  exact ⟨fun ⟨_, hversion, hall⟩ => ⟨hversion, hall⟩,
    fun ⟨hversion, hall⟩ => ⟨(), hversion, hall⟩⟩

/-- A store of the current version is taken exactly where its records are
sound, and then as it is. -/
theorem init_self :
    init net roots storeVersion stored = .ok stored
      ↔ ∀ c ∈ stored, Sound net roots c := by
  rw [init_eq_ok, List.forall₂_same]
  constructor
  · exact fun ⟨_, hall⟩ c hc => sound_of_check (hall c hc)
  · exact fun hall => ⟨rfl, fun c hc => (hall c hc).check⟩

-- ====== migration

section Migration

variable (version : Nat) (c : Certificate)

theorem migrate_source : (migrate version c).source
    = if version < 2 then .acme else c.source := by
  simp only [migrate, apply_ite Certificate.source, ite_self]

theorem migrate_renewalMode : (migrate version c).renewalMode
    = if version < 2 then .automatic else c.renewalMode := by
  simp only [migrate, apply_ite Certificate.renewalMode, ite_self]

theorem migrate_names : (migrate version c).certificateNames
    = if version < 3 then c.domains else c.certificateNames := by
  simp only [migrate, apply_ite Certificate.certificateNames,
    apply_ite Certificate.domains, ite_self]

theorem migrate_challenge : (migrate version c).challenge
    = if version < 3 then
        if (migrate version c).source = .acme then some .http01 else none
      else c.challenge := by
  simp only [migrate, apply_ite Certificate.challenge,
    apply_ite Certificate.source, ite_self]
  split
  · cases (if version < 2 then Source.acme else c.source) <;> rfl
  · rfl

theorem migrate_provisioning : (migrate version c).provisioningOperationId
    = if version < 5 then none else c.provisioningOperationId := by
  simp only [migrate, apply_ite Certificate.provisioningOperationId,
    ite_self]

theorem migrate_purged : (migrate version c).materialPurgedAt
    = if version < 7 then none else c.materialPurgedAt := by
  simp only [migrate, apply_ite Certificate.materialPurgedAt, ite_self]

theorem migrate_state : (migrate version c).state = c.state := by
  simp only [migrate, apply_ite Certificate.state, ite_self]

theorem migrate_retirement : (migrate version c).retirementAgrees
    = if version < 4 then c.state != .retired else c.retirementAgrees := by
  simp only [Certificate.retirementAgrees, migrate_state]
  simp only [migrate, apply_ite Certificate.retirementOperationId,
    apply_ite Certificate.retiredAt, apply_ite Certificate.retiredFromState,
    apply_ite Certificate.retiredFromUpdatedAt, ite_self]
  split
  · cases c.state <;> rfl
  · rfl

theorem migrate_materialState (h : version < 4 → c.state ≠ .retired) :
    (migrate version c).materialState = c.materialState := by
  unfold Certificate.materialState
  rw [migrate_state]
  split
  · rename_i hretired
    have hlate : ¬version < 4 := fun hlt => h hlt hretired
    simp only [migrate, apply_ite Certificate.retiredFromState, ite_self,
      if_neg hlate]
  · rfl

theorem migrate_hasPaths : HasPaths roots (migrate version c)
    ↔ HasPaths roots { c with source := (migrate version c).source } := by
  unfold HasPaths Certificate.expectedPath
  simp only [migrate, apply_ite Certificate.source,
    apply_ite Certificate.id, apply_ite Certificate.certName,
    apply_ite Certificate.certificatePath,
    apply_ite Certificate.fullchainPath,
    apply_ite Certificate.privateKeyPath, ite_self]

theorem migrate_id : (migrate version c).id = c.id := by
  simp only [migrate, apply_ite Certificate.id, ite_self]

end Migration

/-- A valid record of a version, by what that version had: sources came
with the second, names and challenges with the third, retirement with the
fourth, provisioning with the fifth, purposes with the sixth and purges with
the seventh. -/
structure ValidAt (net : Net) (roots : Roots) (version : Nat)
    (c : Certificate) : Prop where
  policy : 2 ≤ version → c.renewalMode = c.source.mode
  identity : 2 ≤ version → c.source = .custom → isUuid c.id = true
  domains : version < 3 → normalizeDomains net c.domains = .ok c.domains
  challenge : 3 ≤ version → (c.challenge.isSome = true ↔ c.source = .acme)
  names : 3 ≤ version → normalizeCertificateNames net c.certificateNames
    (Challenge.isDns c.challenge) = .ok c.certificateNames
  unretired : version < 4 → c.state ≠ .retired
  retirement : 4 ≤ version → c.retirementAgrees = true
  provisioning : 5 ≤ version →
    c.provisioningOperationId.all isSafeOperationId = true
  purge : 7 ≤ version → c.materialPurgedAt = none ∨ c.state = .retired
  material : c.materialState.isMaterial = true → HasPaths roots
    { c with source := if version < 2 then .acme else c.source }

/-- A record that was valid is sound once the defaults are in. -/
theorem ValidAt.sound (h : ValidAt net roots version c) :
    Sound net roots (migrate version c) where
  purge := by
    rw [migrate_purged, migrate_state]
    split
    · exact .inl rfl
    · exact h.purge (by omega)
  provisioning := by
    rw [migrate_provisioning]
    split
    · rfl
    · exact h.provisioning (by omega)
  policy := by
    rw [migrate_renewalMode, migrate_source]
    split
    · rfl
    · exact h.policy (by omega)
  retirement := by
    rw [migrate_retirement]
    split
    · rename_i hearly
      exact bne_iff_ne.mpr (h.unretired hearly)
    · exact h.retirement (by omega)
  identity := by
    rw [migrate_source, migrate_id]
    split
    · exact fun hcustom => nomatch hcustom
    · exact h.identity (by omega)
  challenge := by
    rw [migrate_challenge]
    split
    · by_cases hacme : (migrate version c).source = .acme <;> simp [hacme]
    · rename_i hlate
      rw [migrate_source, if_neg (by omega)]
      exact h.challenge (by omega)
  names := by
    rw [migrate_names]
    by_cases hearly : version < 3
    · rw [if_pos hearly]
      exact normalizeCertificateNames_of_domains (h.domains hearly) _
    · rw [if_neg hearly, migrate_challenge, if_neg hearly]
      exact h.names (by omega)
  material := by
    rw [migrate_materialState version c h.unretired, migrate_hasPaths,
      migrate_source]
    exact h.material

/-- A store of any earlier version with valid records is taken, migrated,
and taken again as it is then, except one of the sixth version: no store of
that version is taken at all. -/
theorem upgrade_iff (net : Net) (roots : Roots) {version : Nat}
    (hversion : 1 ≤ version ∧ version ≤ storeVersion)
    {stored : List Certificate}
    (hvalid : ∀ c ∈ stored, ValidAt net roots version c) :
    (∃ certs, init net roots version stored = .ok certs
        ∧ init net roots storeVersion certs = .ok certs)
      ↔ version ≠ 6 := by
  obtain ⟨hlo, hhi⟩ := hversion
  unfold storeVersion at hhi
  constructor
  · rintro ⟨certs, hinit, -⟩ rfl
    obtain ⟨hknown, -⟩ := init_eq_ok.mp hinit
    exact absurd hknown (by decide)
  · intro hne
    have hknown : [1, 2, 3, 4, 5, storeVersion].contains version = true := by
      rw [List.contains_iff_mem]
      simp only [storeVersion, List.mem_cons, List.not_mem_nil, or_false]
      omega
    refine ⟨stored.map (migrate version), init_eq_ok.mpr ⟨hknown, ?_⟩, ?_⟩
    · rw [List.forall₂_map_right_iff, List.forall₂_same]
      exact fun c hc => (hvalid c hc).sound.check
    · rw [init_self]
      intro c' hc'
      obtain ⟨c, hc, rfl⟩ := List.mem_map.mp hc'
      exact (hvalid c hc).sound

/-- A certificate as the first release would have left it. -/
def sampleCertificate : Certificate where
  id := "1"
  domainId := "domain"
  serverId := "server"
  certName := "example.org"
  domains := ["example.org", "www.example.org"]
  certificateNames := []
  challenge := none
  email := some "admin@example.org"
  staging := false
  source := .custom
  purpose := .webmail
  renewalMode := .manual
  state := .active
  certificatePath := some "/etc/letsencrypt/live/example.org/cert.pem"
  fullchainPath := some "/etc/letsencrypt/live/example.org/fullchain.pem"
  privateKeyPath := some "/etc/letsencrypt/live/example.org/privkey.pem"
  subject := none
  issuer := none
  subjectAltName := none
  validFrom := some ⟨0⟩
  validTo := some ⟨7776000000⟩
  fingerprint256 := none
  lastValidatedAt := none
  lastIssuedAt := some ⟨0⟩
  lastRenewedAt := none
  lastImportedAt := none
  provisioningOperationId := some "?"
  retirementOperationId := some "?"
  retiredAt := none
  retiredFromState := none
  retiredFromUpdatedAt := none
  materialPurgedAt := some ⟨0⟩
  materialDigest := none
  lastError := none
  createdAt := ⟨0⟩
  updatedAt := ⟨0⟩

def sampleRoots : Roots :=
  ⟨"/etc/letsencrypt/live", "/var/lib/yunpanel/custom-certificates"⟩

theorem validAt_sampleCertificate :
    ValidAt Domains.asciiPlatform.toNet sampleRoots 1 sampleCertificate where
  policy h := absurd h (by decide)
  identity h := absurd h (by decide)
  domains _ := by decide +kernel
  challenge h := absurd h (by decide)
  names h := absurd h (by decide)
  unretired _ := by decide
  retirement h := absurd h (by decide)
  provisioning h := absurd h (by decide)
  purge h := absurd h (by decide)
  material _ := by decide +kernel

theorem upgrade_iff_sample :
    (∃ certs, init Domains.asciiPlatform.toNet sampleRoots 1
          [sampleCertificate] = .ok certs
        ∧ init Domains.asciiPlatform.toNet sampleRoots storeVersion certs
          = .ok certs)
      ↔ 1 ≠ 6 :=
  upgrade_iff Domains.asciiPlatform.toNet sampleRoots (by decide)
    fun c hc => by
      rw [List.mem_singleton] at hc
      exact hc ▸ validAt_sampleCertificate

/-- The same certificate as the sixth version would have it. -/
theorem validAt_sixth :
    ValidAt Domains.asciiPlatform.toNet sampleRoots 6
      (migrate 1 sampleCertificate) where
  policy _ := by decide
  identity _ h := absurd h (by decide)
  domains h := absurd h (by decide)
  challenge _ := by decide
  names _ := by decide +kernel
  unretired h := absurd h (by decide)
  retirement _ := by decide
  provisioning _ := by decide
  purge h := absurd h (by decide)
  material _ := by decide +kernel

/-- It is valid, and no store that holds it is taken. -/
theorem sixth_version_refused :
    (∀ c ∈ [migrate 1 sampleCertificate],
        ValidAt Domains.asciiPlatform.toNet sampleRoots 6 c)
      ∧ ¬∃ certs, init Domains.asciiPlatform.toNet sampleRoots 6
          [migrate 1 sampleCertificate] = .ok certs := by
  constructor
  · intro c hc
    rw [List.mem_singleton] at hc
    exact hc ▸ validAt_sixth
  · rintro ⟨certs, hinit⟩
    obtain ⟨hknown, -⟩ := init_eq_ok.mp hinit
    exact absurd hknown (by decide)

example : Text.isHex '0' = true := by decide +kernel

end Yunpanel.Certificates
