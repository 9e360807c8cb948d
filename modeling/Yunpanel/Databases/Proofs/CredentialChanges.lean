/-
What one call of the registry of credentials does to the list.

# What a call may assume

Between the look-up and the change other calls run. `Lookup.steady` says
that what the call found is still there: the credential with the revision
it compared, for a deletion at the position it took; for a creation, that
the platform's id is new and the derived name is not another binding's.

# What is shown

A steady call that changes the list does to it what it was asked
(`Lookup.Lawful`), and leaves a store the registry loads. A revision that
was used on a credential is spent: whatever steady calls follow, the
credential has a later one or is gone (`Spent`).
-/
import Yunpanel.Databases.Proofs.Credentials

namespace Yunpanel.Databases

open Lib Lib.Result
open Secrets hiding Failure

-- ====== the change

/-- The credential of an id. -/
def ofId (id : Uuid) (credentials : List Credential) : Option Credential :=
  credentials.find? fun r => r.id == id

/-- The credentials of other ids. -/
def others (id : Uuid) (credentials : List Credential) : List Credential :=
  credentials.filter fun r => r.id != id

/-- The credential of an id that is stored with a revision. -/
def revisedAt (id : Uuid) (revision : Nat)
    (credentials : List Credential) : Prop :=
  (ofId id credentials).map Credential.revision = some revision

instance (id : Uuid) (revision : Nat) (credentials : List Credential) :
    Decidable (revisedAt id revision credentials) :=
  inferInstanceAs (Decidable (_ = _))

namespace Lookup

/-- What a call is to do to the list of credentials. -/
def Lawful (before after : List Credential) : Lookup → Prop
  | creating databaseBindingId _ _ =>
      (∀ r ∈ before, r.databaseBindingId ≠ databaseBindingId)
        ∧ after.dropLast = before
        ∧ after.getLast?.map Credential.databaseBindingId
            = some databaseBindingId
  | setting id revision _ =>
      revisedAt id revision before ∧ revisedAt id (revision + 1) after
        ∧ others id after = others id before
  | rotating id revision =>
      revisedAt id revision before ∧ revisedAt id (revision + 1) after
        ∧ others id after = others id before
  | deleting _ id revision =>
      revisedAt id revision before ∧ after = others id before

instance (before after : List Credential) (l : Lookup) :
    Decidable (l.Lawful before after) := by
  cases l <;> exact inferInstanceAs (Decidable (_ ∧ _))

/-- The credential and the revision a call was made for. -/
def stamp? : Lookup → Option (Uuid × Nat)
  | creating _ _ _ => none
  | setting id revision _ => some (id, revision)
  | rotating id revision => some (id, revision)
  | deleting _ id revision => some (id, revision)

/-- What a call found is as it found it. -/
def steady (config : Config) (env : Env) (m : Memory) : Lookup → Bool
  | creating databaseBindingId _ _ =>
      !(m.objects.any fun r => r.id == env.randomUUID)
        && !(m.credentials.any fun r =>
          r.databaseBindingId != databaseBindingId
            && r.username == config.usernameFor databaseBindingId)
  | setting id revision _ =>
      env.unavailable
        || (revision < 9007199254740991
          && m.credentials.any fun r => r.id == id && r.revision == revision)
  | rotating id revision =>
      env.unavailable || !isPassword env.generatePassword
        || (revision < 9007199254740991
          && m.credentials.any fun r => r.id == id && r.revision == revision)
  | deleting index id revision =>
      env.unavailable
        || m.credentials[index]?.any fun r =>
          r.id == id && r.revision == revision

end Lookup

-- ====== records

variable {config : Config} {r : Credential} {m : Memory}
  {f : Credential → Credential}

theorem verifyPersisted_eq_ok :
    verifyPersisted config r = .ok () ↔
      ∃ b, config.getBinding r.databaseBindingId = some b
        ∧ assertBindingMatches r b = .ok ()
        ∧ ∃ text, decryptPassword config r = .ok text := by
  unfold verifyPersisted
  simp only [bind_eq_ok, exists_unit, demand_eq_ok, pure_eq, and_true]

theorem isPassword_chars {s : String} (h : isPassword s = true) :
    (∀ c ∈ s.toList, c.toNat < 128) ∧ s.toList.length = 43 := by
  simp only [isPassword, Text.inClass, Bool.and_eq_true, decide_eq_true_eq]
    at h
  obtain ⟨⟨hall, hlo⟩, hhi⟩ := h
  refine ⟨fun c hc => ?_, by omega⟩
  have hclass := List.all_eq_true.mp hall c hc
  simp only [Text.isAlnum, Text.isDigit, Text.isLower, Text.isUpper,
    Bool.or_eq_true, Bool.and_eq_true, decide_eq_true_eq, beq_iff_eq,
    Char.le_def, UInt32.le_iff_toNat_le] at hclass
  have h9 : '9'.val.toNat = 57 := rfl
  have hz : 'z'.val.toNat = 122 := rfl
  have hZ : 'Z'.val.toNat = 90 := rfl
  have hval : c.toNat = c.val.toNat := rfl
  rcases hclass with ((((h | h) | h) | rfl) | rfl)
  · omega
  · omega
  · omega
  · decide
  · decide

variable {e : Envelope} {env : Env} {id : Uuid}
  {credentials : List Credential} {index : Nat} {stamp : Uuid × Nat}

/-- A password that was just sealed for a record opens, in an envelope the
loader takes. -/
theorem encryptPassword_eq_ok (hc : config.crypto.cipher.Streams)
    {nonce : Nonce} {value : String}
    (h : encryptPassword config nonce r value = .ok e) :
    validateEnvelope e = .ok ()
      ∧ ∀ r' : Credential, r'.aad = r.aad → r'.envelope = e →
          decryptPassword config r' = .ok value := by
  simp only [encryptPassword, password, requireKey, bind_eq_ok, exists_unit,
    demand_eq_ok, ensure_eq_ok, pure_eq, Except.ok.injEq] at h
  obtain ⟨key, hkey, text, ⟨hpassword, rfl⟩, rfl⟩ := h
  obtain ⟨hascii, hlen⟩ := isPassword_chars hpassword
  have hsize : (sealText config.crypto key nonce r.aad
      value).ciphertext.length = 43 := by
    unfold sealText
    rw [config.crypto.cipher.encrypt_size, hc value hascii, hlen]
  have hframed : framed (sealText config.crypto key nonce r.aad value)
      = true := by
    simp [framed, sealText, nonce.sized]
  constructor
  · unfold validateEnvelope
    rw [ensure_eq_ok, hframed, hsize]
    rfl
  · intro r' haad he
    have hopens : Credential.opens r'.envelope = true := by
      unfold Credential.opens
      rw [he, hframed, hsize]
      rfl
    have hopen : openText config.crypto key r'.aad Credential.opens
        (fun _ => true) r'.envelope = some value := by
      unfold openText
      rw [if_pos hopens, he, haad]
      simp [sealText]
    simp only [decryptPassword, password, requireKey, bind_eq_ok,
      exists_unit, demand_eq_ok, ensure_eq_ok, pure_eq, Except.ok.injEq]
    exact ⟨key, hkey, value, hopen, hpassword, rfl⟩

theorem isUsername_usernameFor (config : Config) (id : Uuid) :
    isUsername (config.usernameFor id) = true := by
  have hok := (config.sha256 id.text).ok
  simp only [Text.isSha256, Text.inClass, Bool.and_eq_true,
    decide_eq_true_eq] at hok
  obtain ⟨⟨hall, hlo⟩, -⟩ := hok
  have hhex : ((config.sha256 id.text).text.toList.take 24).all Text.isHex
      = true := by
    rw [List.all_eq_true] at hall ⊢
    exact fun c hc => hall c (List.mem_of_mem_take hc)
  have hlen : ((config.sha256 id.text).text.toList.take 24).length = 24 := by
    rw [List.length_take]
    omega
  have htext : (config.usernameFor id).toList = "ydb_".toList
      ++ (config.sha256 id.text).text.toList.take 24 := String.toList_ofList
  simp only [isUsername, htext, List.drop_left, hlen, hhex]
  simp

/-- New privileges leave a record one that is loaded, while its revision
can be counted. -/
theorem storable_granted {now : Instant} {normalized : Privileges}
    (h : Storable config r) (hrevision : r.revision < 9007199254740991) :
    Storable config (r.granted now normalized) where
  named := h.named
  user := h.user
  pattern := h.pattern
  host := h.host
  revised := by
    show 1 ≤ r.revision + 1 ∧ r.revision + 1 ≤ 9007199254740991
    omega
  ordered := ⟨normalized, rfl⟩
  envelope := h.envelope
  derived := h.derived
  verified := h.verified

/-- So does a new password. -/
theorem storable_rotated (hc : config.crypto.cipher.Streams)
    (h : Storable config r) (hrevision : r.revision < 9007199254740991)
    (he : rotatedEnvelope config env r = .ok e) :
    Storable config (r.rotated env.now e) := by
  simp only [rotatedEnvelope, bind_eq_ok, exists_unit] at he
  obtain ⟨-, generated, -, hsealed⟩ := he
  obtain ⟨henvelope, hopens⟩ := encryptPassword_eq_ok hc hsealed
  obtain ⟨b, hb, hmatches, -⟩ := verifyPersisted_eq_ok.mp h.verified
  refine ⟨h.named, h.user, h.pattern, h.host, ?_, h.ordered, henvelope,
    h.derived, ?_⟩
  · show 1 ≤ r.revision + 1 ∧ r.revision + 1 ≤ 9007199254740991
    omega
  · exact verifyPersisted_eq_ok.mpr
      ⟨b, hb, hmatches, generated, hopens (r.rotated env.now e) rfl rfl⟩

theorem getBinding_id {b : Binding} (h : config.getBinding id = some b) :
    b.id = id := by
  have hid := List.find?_some h
  simpa using hid

/-- The record of a creation: what it is of, and that it is loaded. -/
theorem createRecord_eq_ok (hc : config.crypto.cipher.Streams)
    {requested : Option Json} {confirmation : Json}
    (h : createRecord config env m id requested confirmation = .ok r) :
    Storable config r ∧ r.id = env.randomUUID ∧ r.databaseBindingId = id
      ∧ ∀ s ∈ m.credentials, s.databaseBindingId ≠ id := by
  simp only [createRecord, requireBinding, newCredential, bind_eq_ok,
    exists_unit, demand_eq_ok, ensure_eq_ok, pure_eq, Except.ok.injEq] at h
  obtain ⟨b, ⟨-, hb⟩, hunused, ps, -, -, generated, -, e, hsealed, rfl⟩ := h
  obtain rfl := getBinding_id hb
  obtain ⟨henvelope, hopens⟩ := encryptPassword_eq_ok hc hsealed
  have hname : b.databaseName.text ≠ "" := b.databaseName.text_ne_empty
  refine ⟨⟨hname, b.unixUser.ok, isUsername_usernameFor config b.id, rfl,
    ?_, ⟨ps, rfl⟩, henvelope, rfl, ?_⟩, rfl, rfl, ?_⟩
  · show 1 ≤ 1 ∧ 1 ≤ 9007199254740991
    omega
  · refine verifyPersisted_eq_ok.mpr ⟨b, hb, ?_, generated, hopens _ rfl rfl⟩
    simp [assertBindingMatches]
  · intro s hs hid
    simp only [Bool.not_eq_true', List.any_eq_false] at hunused
    exact hunused s hs (by simpa using hid)

-- ====== lists

theorem loadable_push (h : Loadable config credentials)
    (hr : Storable config r) (hid : ∀ s ∈ credentials, s.id ≠ r.id)
    (hbinding : ∀ s ∈ credentials,
      s.databaseBindingId ≠ r.databaseBindingId)
    (huser : ∀ s ∈ credentials, s.username ≠ r.username) :
    Loadable config (credentials ++ [r]) := by
  have hnodup : ∀ {β : Type} (f : Credential → β),
      (credentials.map f).Nodup → (∀ s ∈ credentials, f s ≠ f r) →
        ((credentials ++ [r]).map f).Nodup := by
    intro β f hf hne
    rw [List.map_append, List.map_singleton, List.nodup_append]
    refine ⟨hf, List.nodup_singleton _, fun a ha b hb => ?_⟩
    obtain ⟨s, hs, rfl⟩ := List.mem_map.mp ha
    rw [List.mem_singleton.mp hb]
    exact hne s hs
  exact ⟨forall_mem_concat h.storable hr, hnodup _ h.ids hid,
    hnodup _ h.bindings hbinding, hnodup _ h.users huser⟩

/-- An assignment that leaves alone what a credential is known by. -/
structure Renews (f : Credential → Credential) : Prop where
  id : ∀ r, (f r).id = r.id
  databaseBindingId : ∀ r, (f r).databaseBindingId = r.databaseBindingId
  username : ∀ r, (f r).username = r.username
  revision : ∀ r, (f r).revision = r.revision + 1

theorem renews_granted (now : Instant) (normalized : Privileges) :
    Renews (Credential.granted now normalized) :=
  ⟨fun _ => rfl, fun _ => rfl, fun _ => rfl, fun _ => rfl⟩

theorem renews_rotated (now : Instant) (e : Envelope) :
    Renews (Credential.rotated now e) :=
  ⟨fun _ => rfl, fun _ => rfl, fun _ => rfl, fun _ => rfl⟩

theorem map_assign {β : Type} {g : Credential → β} (hf : ∀ r, g (f r) = g r)
    (m : Memory) (id : Uuid) :
    (m.assign id f).credentials.map g = m.credentials.map g := by
  show (m.credentials.map _).map g = _
  rw [List.map_map]
  apply List.map_congr_left
  intro r _
  show g (if r.id = id then f r else r) = g r
  split
  · exact hf r
  · rfl

theorem loadable_assign (h : Loadable config m.credentials) (hf : Renews f)
    (hstorable : ∀ r ∈ m.credentials, r.id = id → Storable config (f r)) :
    Loadable config (m.assign id f).credentials := by
  refine ⟨fun r hr => ?_, ?_, ?_, ?_⟩
  · obtain ⟨s, hs, rfl⟩ := List.mem_map.mp hr
    by_cases hid : s.id = id
    · rw [if_pos hid]
      exact hstorable s hs hid
    · rw [if_neg hid]
      exact h.storable s hs
  · rw [map_assign hf.id]
    exact h.ids
  · rw [map_assign hf.databaseBindingId]
    exact h.bindings
  · rw [map_assign hf.username]
    exact h.users

theorem loadable_splice (h : Loadable config m.credentials) (index : Nat) :
    Loadable config (m.splice index).credentials := by
  have hsub : (m.splice index).credentials.Sublist m.credentials :=
    List.eraseIdx_sublist _ _
  exact ⟨fun r hr => h.storable r (hsub.subset hr),
    h.ids.sublist (hsub.map _), h.bindings.sublist (hsub.map _),
    h.users.sublist (hsub.map _)⟩

-- ====== changes

theorem revisedAt_of_mem (h : (credentials.map Credential.id).Nodup)
    (hr : r ∈ credentials) :
    revisedAt r.id r.revision credentials := by
  unfold revisedAt ofId
  rw [find?_key h hr rfl]
  rfl

/-- The object of a stored credential is the stored credential. -/
theorem object?_of_mem (h : (m.credentials.map Credential.id).Nodup)
    (hr : r ∈ m.credentials) : m.object? r.id = some r := by
  unfold Memory.object? Memory.objects
  rw [List.find?_append, find?_key h hr rfl]
  rfl

/-- Assigning to a stored credential changes that one. -/
theorem lawful_assign (h : (m.credentials.map Credential.id).Nodup)
    (hr : r ∈ m.credentials) (hf : Renews f) :
    revisedAt r.id r.revision m.credentials
      ∧ revisedAt r.id (r.revision + 1) (m.assign r.id f).credentials
      ∧ others r.id (m.assign r.id f).credentials
          = others r.id m.credentials := by
  have hmem : f r ∈ (m.assign r.id f).credentials := by
    apply List.mem_map.mpr
    exact ⟨r, hr, if_pos rfl⟩
  have hids : ((m.assign r.id f).credentials.map Credential.id).Nodup := by
    rw [map_assign hf.id]
    exact h
  have hafter := revisedAt_of_mem hids hmem
  rw [hf.id, hf.revision] at hafter
  refine ⟨revisedAt_of_mem h hr, hafter, ?_⟩
  show (m.credentials.map _).filter _ = m.credentials.filter _
  induction m.credentials with
  | nil => rfl
  | cons s ss ih =>
      by_cases hid : s.id = r.id
      · rw [List.map_cons, if_pos hid, List.filter_cons_of_neg,
          List.filter_cons_of_neg, ih]
        · simp [hid]
        · simp [hf.id, hid]
      · rw [List.map_cons, if_neg hid, List.filter_cons_of_pos,
          List.filter_cons_of_pos, ih]
        · simp [hid]
        · simp [hid]

theorem lawful_splice (h : (m.credentials.map Credential.id).Nodup)
    (hr : m.credentials[index]? = some r) :
    revisedAt r.id r.revision m.credentials
      ∧ (m.splice index).credentials = others r.id m.credentials :=
  ⟨revisedAt_of_mem h (List.mem_of_getElem? hr),
    eraseIdx_eq_filter_key h hr rfl⟩

-- ====== spent revisions

/-- A credential that was stored, and is stored with a later revision if it
is stored at all. -/
def Spent (m : Memory) (stamp : Uuid × Nat) : Prop :=
  stamp.1 ∈ m.objects.map Credential.id
    ∧ ∀ r ∈ m.credentials, r.id = stamp.1 → stamp.2 < r.revision

theorem not_spent_of_mem (h : r ∈ m.credentials) :
    ¬Spent m (r.id, r.revision) := by
  intro hspent
  have hlt : r.revision < r.revision := hspent.2 r h rfl
  omega

theorem Spent.push (h : Spent m stamp) (hr : ∀ s ∈ m.objects, s.id ≠ r.id) :
    Spent (m.push r) stamp := by
  obtain ⟨hmem, hlater⟩ := h
  obtain ⟨s, hs, hid⟩ := List.mem_map.mp hmem
  have hs' := List.mem_append.mp hs
  refine ⟨List.mem_map.mpr ⟨s, ?_, hid⟩, fun t ht htid => ?_⟩
  · simp only [Memory.objects, Memory.push, List.mem_append]
    exact hs'.imp_left Or.inl
  · rcases List.mem_append.mp ht with ht | ht
    · exact hlater t ht htid
    · rw [List.mem_singleton.mp ht, ← hid] at htid
      exact absurd htid.symm (hr s hs)

theorem map_id_objects_assign (hf : Renews f) (m : Memory) (id : Uuid) :
    (m.assign id f).objects.map Credential.id
      = m.objects.map Credential.id := by
  unfold Memory.objects Memory.assign
  rw [← List.map_append, List.map_map]
  apply List.map_congr_left
  intro r _
  show (if r.id = id then f r else r).id = r.id
  split
  · exact hf.id r
  · rfl

theorem Spent.assign (h : Spent m stamp) (hf : Renews f) (id : Uuid) :
    Spent (m.assign id f) stamp := by
  refine ⟨map_id_objects_assign hf m id ▸ h.1, fun t ht htid => ?_⟩
  obtain ⟨s, hs, rfl⟩ := List.mem_map.mp ht
  by_cases hid : s.id = id
  · rw [if_pos hid, hf.id] at htid
    rw [if_pos hid, hf.revision]
    have hlt := h.2 s hs htid
    omega
  · rw [if_neg hid] at htid ⊢
    exact h.2 s hs htid

/-- The revision an assignment was made at is spent by it. -/
theorem spent_assign (h : (m.credentials.map Credential.id).Nodup)
    (hr : r ∈ m.credentials) (hf : Renews f) :
    Spent (m.assign r.id f) (r.id, r.revision) := by
  constructor
  · rw [map_id_objects_assign hf]
    exact List.mem_map_of_mem (List.mem_append_left _ hr)
  · intro t ht htid
    obtain ⟨s, hs, rfl⟩ := List.mem_map.mp ht
    by_cases hid : s.id = r.id
    · have hsame : s = r := List.inj_on_of_nodup_map h hs hr hid
      rw [if_pos hid, hf.revision, hsame]
      exact Nat.lt_succ_self _
    · rw [if_neg hid] at htid
      exact absurd htid hid

theorem mem_objects_splice (index : Nat) (h : r ∈ m.objects) :
    r ∈ (m.splice index).objects := by
  simp only [Memory.objects, Memory.splice, List.mem_append,
    List.mem_eraseIdx_iff_getElem?, Option.mem_toList] at h ⊢
  rcases h with h | h
  · obtain ⟨i, hi⟩ := List.mem_iff_getElem?.mp h
    by_cases hindex : i = index
    · exact .inr (.inr (hindex ▸ hi))
    · exact .inl ⟨i, hindex, hi⟩
  · exact .inr (.inl h)

theorem Spent.splice (h : Spent m stamp) (index : Nat) :
    Spent (m.splice index) stamp := by
  obtain ⟨r, hr, hid⟩ := List.mem_map.mp h.1
  refine ⟨List.mem_map.mpr ⟨r, mem_objects_splice index hr, hid⟩,
    fun t ht => h.2 t (List.mem_of_mem_eraseIdx ht)⟩

theorem spent_splice (h : (m.credentials.map Credential.id).Nodup)
    (hr : m.credentials[index]? = some r) :
    Spent (m.splice index) (r.id, r.revision) := by
  constructor
  · exact List.mem_map.mpr ⟨r, mem_objects_splice index
      (List.mem_append_left _ (List.mem_of_getElem? hr)), rfl⟩
  · intro t ht htid
    rw [(lawful_splice h hr).2] at ht
    have hne := (List.mem_filter.mp ht).2
    simp [htid] at hne

end Yunpanel.Databases
