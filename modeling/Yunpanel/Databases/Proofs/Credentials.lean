/-
Which stores of credentials the registry loads, and that what a call writes
is one of them.

A store is loaded as it is exactly when each record passes the checks of
its own fields, names a binding that still matches, and opens under the
key, and when ids, bindings and users are distinct (`loadable_iff`). The
three things a call does to the list keep that: adding a record it has
just sealed, assigning to a stored one, and taking one out.
-/
import Yunpanel.Databases.Credentials

namespace Yunpanel.Databases

open Lib Lib.Result
open Secrets hiding Failure

-- ====== privileges

theorem orderedPrivileges_entries (ps : Privileges) :
    orderedPrivileges ps.entries = .ok ps := by
  have hlen : ps.entries.length ≤ allowedPrivileges.length := by
    rw [← ps.ordered]
    exact List.length_filter_le _ _
  have hnodup : ps.entries.Nodup := by
    rw [← ps.ordered]
    exact List.Nodup.filter _ (by decide)
  unfold orderedPrivileges
  rw [dif_pos ⟨ps.nonempty, hlen⟩, if_pos hnodup]
  congr 1
  cases ps with
  | mk entries nonempty ordered =>
      simp only [Privileges.sorted, Privileges.mk.injEq]
      exact ordered

-- ====== records

/-- A record the registry loads as it is. -/
structure Storable (config : Config) (r : Credential) : Prop where
  named : r.databaseName ≠ ""
  user : isSiteUser r.siteUnixUser = true
  pattern : isUsername r.username = true
  host : r.host = databaseUserHost
  revised : 1 ≤ r.revision ∧ r.revision ≤ 9007199254740991
  ordered : ∃ ps : Privileges, ps.entries = r.privileges
  envelope : validateEnvelope r.envelope = .ok ()
  derived : r.username = config.usernameFor r.databaseBindingId
  verified : verifyPersisted config r = .ok ()

variable {config : Config}

variable {r r' : Credential} {credentials : List Credential}

theorem normalizePersisted_eq_ok :
    normalizePersisted config r = .ok r' ↔
      (r.databaseName ≠ "" ∧ isSiteUser r.siteUnixUser = true
        ∧ isUsername r.username = true ∧ r.host = databaseUserHost
        ∧ 1 ≤ r.revision ∧ r.revision ≤ 9007199254740991
        ∧ validateEnvelope r.envelope = .ok ()
        ∧ r.username = config.usernameFor r.databaseBindingId)
      ∧ ∃ ps, orderedPrivileges r.privileges = .ok ps
          ∧ r' = { r with privileges := ps.entries } := by
  unfold normalizePersisted
  simp only [bind_eq_ok, exists_unit, ensure_eq_ok, Bool.and_eq_true,
    bne_iff_ne, beq_iff_eq, decide_eq_true_eq, pure_eq, Except.ok.injEq]
  constructor
  · rintro ⟨⟨⟨⟨⟨⟨hname, huser⟩, hpattern⟩, hhost⟩, hhi⟩, hlo⟩, ps, hps,
      henvelope, hderived, rfl⟩
    exact ⟨⟨hname, huser, hpattern, hhost, hlo, hhi, henvelope, hderived⟩,
      ps, hps, rfl⟩
  · rintro ⟨⟨hname, huser, hpattern, hhost, hlo, hhi, henvelope, hderived⟩,
      ps, hps, rfl⟩
    exact ⟨⟨⟨⟨⟨⟨hname, huser⟩, hpattern⟩, hhost⟩, hhi⟩, hlo⟩, ps, hps,
      henvelope, hderived, rfl⟩

/-- The two passes of `init` over one record, where the first leaves it as
it is. -/
theorem storable_iff :
    Storable config r ↔
      normalizePersisted config r = .ok r
        ∧ verifyPersisted config r = .ok () := by
  rw [normalizePersisted_eq_ok]
  constructor
  · intro h
    obtain ⟨ps, hps⟩ := h.ordered
    have hordered : orderedPrivileges r.privileges = .ok ps :=
      hps ▸ orderedPrivileges_entries ps
    exact ⟨⟨⟨h.named, h.user, h.pattern, h.host, h.revised.1, h.revised.2,
      h.envelope, h.derived⟩, ps, hordered, by rw [hps]⟩, h.verified⟩
  · rintro ⟨⟨⟨hname, huser, hpattern, hhost, hlo, hhi, henvelope, hderived⟩,
      ps, -, hps⟩, hverified⟩
    have hentries : ps.entries = r.privileges :=
      (congrArg Credential.privileges hps).symm
    exact ⟨hname, huser, hpattern, hhost, ⟨hlo, hhi⟩, ⟨ps, hentries⟩,
      henvelope, hderived, hverified⟩

/-- A record the loader has normalized is one it leaves as it is. -/
theorem storable_of_normalized (h : normalizePersisted config r = .ok r')
    (hverified : verifyPersisted config r' = .ok ()) :
    Storable config r' := by
  obtain ⟨⟨hname, huser, hpattern, hhost, hlo, hhi, henvelope, hderived⟩,
    ps, -, rfl⟩ := normalizePersisted_eq_ok.mp h
  exact ⟨hname, huser, hpattern, hhost, ⟨hlo, hhi⟩, ⟨ps, rfl⟩, henvelope,
    hderived, hverified⟩

-- ====== stores

/-- A store the registry loads as it is. -/
structure Loadable (config : Config) (credentials : List Credential) :
    Prop where
  storable : ∀ r ∈ credentials, Storable config r
  ids : (credentials.map Credential.id).Nodup
  bindings : (credentials.map Credential.databaseBindingId).Nodup
  users : (credentials.map Credential.username).Nodup

/-- With one host, distinct users are distinct names. -/
theorem nodup_users (h : ∀ r ∈ credentials, Storable config r) :
    (credentials.map fun r => r.username ++ "@" ++ r.host).Nodup
      ↔ (credentials.map Credential.username).Nodup := by
  have hhost : (credentials.map fun r => r.username ++ "@" ++ r.host)
      = (credentials.map Credential.username).map
          fun name => name ++ "@" ++ databaseUserHost := by
    rw [List.map_map]
    apply List.map_congr_left
    intro r hr
    show r.username ++ "@" ++ r.host = r.username ++ "@" ++ databaseUserHost
    rw [(h r hr).host]
  rw [hhost, List.nodup_map_iff]
  intro a b hab
  rwa [String.append_left_inj, String.append_left_inj] at hab

theorem loadable_of_init {stored : List Credential}
    (h : init config stored = .ok credentials) :
    Loadable config credentials := by
  unfold init at h
  simp only [bind_eq_ok, exists_unit, ensure_eq_ok, Bool.and_eq_true,
    decide_eq_true_eq, pure_eq, Except.ok.injEq] at h
  obtain ⟨rs, hrs, ⟨⟨hids, hbindings⟩, husers⟩, hverified, rfl⟩ := h
  rw [forM_eq_ok] at hverified
  have hstorable : ∀ r ∈ rs, Storable config r := by
    intro r hr
    obtain ⟨r₀, -, hr₀⟩ := exists_of_forall₂ (mapM_eq_ok_iff.mp hrs) hr
    exact storable_of_normalized hr₀ (hverified r hr)
  exact ⟨hstorable, hids, hbindings, (nodup_users hstorable).mp husers⟩

/-- A store is loaded as it is exactly when it is loadable. -/
theorem loadable_iff :
    Loadable config credentials
      ↔ init config credentials = .ok credentials := by
  constructor
  · intro h
    have hmap : credentials.mapM (normalizePersisted config)
        = .ok credentials := by
      rw [mapM_eq_ok_iff, List.forall₂_same]
      exact fun r hr => (storable_iff.mp (h.storable r hr)).1
    unfold init
    simp only [bind_eq_ok, exists_unit, ensure_eq_ok, Bool.and_eq_true,
      decide_eq_true_eq, pure_eq, Except.ok.injEq]
    exact ⟨credentials, hmap,
      ⟨⟨h.ids, h.bindings⟩, (nodup_users h.storable).mpr h.users⟩,
      forM_eq_ok.mpr fun r hr => (h.storable r hr).verified, rfl⟩
  · exact loadable_of_init

end Yunpanel.Databases
