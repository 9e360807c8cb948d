/-
Which secrets a rotation carries over to the next key.

Every component opens its secrets with a key it takes from the master key
(`reads`). What the rotation seals anew opens under the next key to the
text it had, and nothing but envelopes differs in its stores. The rest is
what it does not take: the components it does not know, and store files
whose path it is not given. Their envelopes stay under the key they were
under, so they are lost exactly where there is one that could be opened.
-/
import Yunpanel.Secrets.Proofs.Failure

namespace Yunpanel.Secrets

open Lib Exec

-- ====== reading

/-- Where a component keeps secrets. -/
inductive Place where
  | secondFactors (t : TableName)
  | store (f : StoreFile)
  | others
  deriving DecidableEq

/-- What the component of a store file gets out of its envelopes, when it
is given this master key. -/
def StoreFile.reads (crypto : Crypto) (master : MasterKey) :
    (f : StoreFile) → f.Store → List (Option String)
  | .environment, store =>
      store.vars.map fun r => master.key?.bind fun key =>
        r.decryptValue crypto key
  | .dnsProvider, (store : List DnsCredential) =>
      store.map fun r => master.key?.bind fun key =>
        r.decryptToken crypto key
  | .mailbox, (store : List Mailbox) =>
      store.map fun r => master.key?.bind fun key =>
        r.decryptPasswordHash crypto key

/-- A file that is no store has no envelopes to open. -/
def Content.reads (crypto : Crypto) (master : MasterKey) {f : StoreFile} :
    Content f.Store → List (Option String)
  | .stored store => f.reads crypto master store
  | .invalid _ => []
  | .notJson _ => []

/-- What the vault gets out of a row. -/
def MfaRow.read (crypto : Crypto) (master : MasterKey) (row : MfaRow) :
    Option String :=
  master.vaultKey?.bind fun key =>
    vaultDecrypt crypto key row.userId row.secret

/-- What each component gets out of each of its envelopes, when it is given
this master key. -/
def reads (crypto : Crypto) (master : MasterKey) (w : World) :
    Place → List (Option String)
  | .secondFactors t => (w.auth.rows t).map (MfaRow.read crypto master)
  | .store f => (w.file f).elim [] (Content.reads crypto master)
  | .others => w.others.map fun secret =>
      secret.1.decrypt crypto master secret.2

/-- Every text that was read before is read after. -/
def Carried (before after : List (Option String)) : Prop :=
  List.Forall₂ (fun x y => ∀ text, x = some text → y = some text) before
    after

/-- A variable without its envelope. -/
def Variable.bare (r : Variable) : Variable :=
  match r.value with
  | .plain _ => r
  | .secret _ => { r with value := .secret ⟨[], [], []⟩ }

/-- The records of a store without their envelopes. -/
def StoreFile.bare : (f : StoreFile) → f.Store → f.Store
  | .environment, store =>
      { store with vars := store.vars.map Variable.bare }
  | .dnsProvider, (store : List DnsCredential) =>
      store.map fun r => { r with envelope := ⟨[], [], []⟩ }
  | .mailbox, (store : List Mailbox) =>
      store.map fun r => { r with envelope := ⟨[], [], []⟩ }

/-- A file without its envelopes. -/
def Content.bare {f : StoreFile} : Content f.Store → Content f.Store
  | .stored store => .stored (f.bare store)
  | .invalid value => .invalid value
  | .notJson text => .notJson text

/-- A row without its envelope. -/
def MfaRow.bare (row : MfaRow) : MfaRow :=
  { row with secret := row.secret.map fun _ => ⟨[], [], []⟩ }

/-- Nothing but envelopes differs, and the record of the rotation. -/
structure OnlyEnvelopesDiffer (eventAt : Instant) (w₀ w : World) :
    Prop where
  tables : ∀ t, (w.auth.table t).map (fun table =>
      table.rows.map MfaRow.bare)
    = (w₀.auth.table t).map fun table => table.rows.map MfaRow.bare
  events : w.auth.events = w₀.auth.events.map
    (· ++ [⟨"secret_master_key.rotated", eventAt⟩])
  files : ∀ f, (w.file f).map Content.bare = (w₀.file f).map Content.bare
  others : w.others = w₀.others

-- ====== resealing

/-- A test of an envelope that looks at its frame and at the size of its
ciphertext. -/
def LooksAtSize (accepts : Envelope → Bool) : Prop :=
  ∀ e e', accepts e = true → framed e' = true →
    e'.ciphertext.length = e.ciphertext.length → accepts e' = true

theorem framed_sealText (crypto : Crypto) (key : Key) (nonce : Nonce)
    (aad text : String) :
    framed (sealText crypto key nonce aad text) = true := by
  unfold framed sealText
  rw [crypto.cipher.encrypt_iv, crypto.cipher.encrypt_tag, nonce.sized]
  rfl

/-- What a component opened, sealed anew under another key, it opens under
that key to the same text. -/
theorem openText_sealText {crypto : Crypto} {key key' : Key}
    {aad text : String} {accepts : Envelope → Bool}
    {valid : String → Bool} {e : Envelope} (haccepts : LooksAtSize accepts)
    (h : openText crypto key aad accepts valid e = some text)
    (nonce : Nonce) :
    openText crypto key' aad accepts valid
      (sealText crypto key' nonce aad text) = some text := by
  unfold openText at h
  split at h
  · rename_i he
    obtain ⟨hdecrypt, hvalid⟩ := Option.filter_eq_some_iff.mp h
    have hsize : (sealText crypto key' nonce aad text).ciphertext.length
        = e.ciphertext.length :=
      crypto.cipher.size_of_decrypt hdecrypt nonce.bytes
    have hnew : accepts (sealText crypto key' nonce aad text) = true :=
      haccepts e _ he (framed_sealText crypto key' nonce aad text) hsize
    unfold openText
    rw [if_pos hnew]
    refine Option.filter_eq_some_iff.mpr ⟨?_, hvalid⟩
    exact crypto.cipher.decrypt_encrypt key' nonce.bytes aad text
  · cases h

/-- An envelope opens to one text, whatever is asked of it. -/
theorem openText_unique {crypto : Crypto} {key : Key} {aad text text' : String}
    {accepts accepts' : Envelope → Bool} {valid valid' : String → Bool}
    {e : Envelope}
    (h : openText crypto key aad accepts valid e = some text)
    (h' : openText crypto key aad accepts' valid' e = some text') :
    text = text' := by
  unfold openText at h h'
  split at h
  · split at h'
    · have hdecrypt := (Option.filter_eq_some_iff.mp h).1
      have hdecrypt' := (Option.filter_eq_some_iff.mp h').1
      exact Option.some.inj (hdecrypt.symm.trans hdecrypt')
    · cases h'
  · cases h

-- ====== records

section Records

variable {crypto : Crypto} {current next : Key} {nonce : Nonce}

theorem looksAtSize_framed : LooksAtSize framed :=
  fun _ _ _ hframed _ => hframed

theorem looksAtSize_vault :
    LooksAtSize fun e => framed e && vaultLength e ≤ 1024 := by
  intro e e' he hframed hsize
  simp only [Bool.and_eq_true, decide_eq_true_eq] at he ⊢
  refine ⟨hframed, ?_⟩
  have hold := he.1
  unfold framed at hold hframed
  simp only [Bool.and_eq_true, beq_iff_eq] at hold hframed
  have hlength := he.2
  unfold vaultLength at hlength ⊢
  rw [hold.1, hold.2] at hlength
  rw [hframed.1, hframed.2, hsize]
  exact hlength

theorem looksAtSize_credential : LooksAtSize DnsCredential.persisted := by
  intro e e' he hframed hsize
  unfold DnsCredential.persisted at he ⊢
  simp only [Bool.and_eq_true] at he ⊢
  rw [hsize]
  exact ⟨⟨hframed, he.1.2⟩, he.2⟩

theorem looksAtSize_mailbox : LooksAtSize Mailbox.persisted := by
  intro e e' he hframed hsize
  unfold Mailbox.persisted at he ⊢
  simp only [Bool.and_eq_true] at he ⊢
  rw [hsize]
  exact ⟨⟨⟨⟨hframed, he.1.1.1.2⟩, he.1.1.2⟩, he.1.2⟩, he.2⟩

/-- A second factor, sealed anew. -/
theorem carried_row {row : MfaRow} {pair : MfaRow × Envelope}
    (h : rewrapMfaRow crypto current next nonce row = .ok pair) :
    (∀ text, vaultDecrypt crypto current row.userId row.secret = some text →
        vaultDecrypt crypto next (AuthDb.resealed pair).userId
          (AuthDb.resealed pair).secret = some text)
      ∧ (AuthDb.resealed pair).bare = row.bare := by
  unfold rewrapMfaRow at h
  split at h
  · cases h
  · split at h
    · rename_i secret hsecret
      obtain rfl := Except.ok.inj h
      refine ⟨fun text htext => ?_, ?_⟩
      · obtain rfl := Option.some.inj (hsecret.symm.trans htext)
        obtain ⟨e, -, hopen⟩ := Option.bind_eq_some_iff.mp hsecret
        exact openText_sealText looksAtSize_vault hopen nonce
      · unfold MfaRow.bare AuthDb.resealed
        cases hnone : row.secret with
        | none =>
            rw [hnone] at hsecret
            cases hsecret
        | some e => rfl
    · cases h

/-- A variable, sealed anew. -/
theorem carried_variable {r r' : Variable}
    (h : rewrapVariable crypto current next nonce r = .ok r') :
    (∀ text, r.decryptValue crypto current = some text →
        r'.decryptValue crypto next = some text)
      ∧ r'.bare = r.bare := by
  unfold rewrapVariable at h
  unfold Variable.decryptValue Variable.bare
  cases hvalue : r.value with
  | plain value =>
      rw [hvalue] at h
      obtain rfl := Except.ok.inj h
      rw [hvalue]
      exact ⟨fun text htext => htext, rfl⟩
  | secret e =>
      rw [hvalue] at h
      obtain ⟨value, hdecrypted, h⟩ := Result.bind_eq_ok.mp h
      obtain rfl := Except.ok.inj h
      refine ⟨fun text htext => ?_, rfl⟩
      have hany : LooksAtSize fun _ => true := fun _ _ _ _ _ => rfl
      unfold decryptEnvironmentSecret at hdecrypted
      split at hdecrypted
      · rename_i value' hopen
        obtain rfl := Except.ok.inj hdecrypted
        obtain rfl : value' = text := openText_unique hopen htext
        exact openText_sealText hany htext nonce
      · cases hdecrypted

/-- A DNS provider credential, sealed anew. -/
theorem carried_credential {r r' : DnsCredential}
    (h : rewrapDnsCredential crypto current next nonce r = .ok r') :
    (∀ text, r.decryptToken crypto current = some text →
        r'.decryptToken crypto next = some text)
      ∧ ({ r' with envelope := ⟨[], [], []⟩ } : DnsCredential)
        = { r with envelope := ⟨[], [], []⟩ } := by
  unfold rewrapDnsCredential at h
  split at h
  · rename_i token htoken
    obtain rfl := Except.ok.inj h
    refine ⟨fun text htext => ?_, rfl⟩
    obtain rfl := Option.some.inj (htoken.symm.trans htext)
    exact openText_sealText looksAtSize_credential htoken nonce
  · cases h

/-- A mailbox, sealed anew. -/
theorem carried_mailbox {r r' : Mailbox}
    (h : rewrapMailbox crypto current next nonce r = .ok r') :
    (∀ text, r.decryptPasswordHash crypto current = some text →
        r'.decryptPasswordHash crypto next = some text)
      ∧ ({ r' with envelope := ⟨[], [], []⟩ } : Mailbox)
        = { r with envelope := ⟨[], [], []⟩ } := by
  unfold rewrapMailbox at h
  split at h
  · rename_i hash hhash
    obtain rfl := Except.ok.inj h
    refine ⟨fun text htext => ?_, rfl⟩
    obtain rfl := Option.some.inj (hhash.symm.trans htext)
    exact openText_sealText looksAtSize_mailbox hhash nonce
  · cases h

end Records

-- ====== lists

/-- Record by record, what was read before is read after. -/
theorem carried_of_rewrapAll {α β : Type} {nonces : Nat → Nonce}
    {rewrap : Nonce → α → Except Failure β} {read : α → Option String}
    {read' : β → Option String} {rs : List α} {rs' : List β}
    (h : rewrapAll rewrap nonces rs = .ok rs')
    (hrecord : ∀ nonce r r', rewrap nonce r = .ok r' →
      ∀ text, read r = some text → read' r' = some text) :
    Carried (rs.map read) (rs'.map read') := by
  have hpairs := forall₂_of_rewrapAll h
  unfold Carried
  rw [List.forall₂_map_left_iff, List.forall₂_map_right_iff]
  exact hpairs.imp fun r r' ⟨nonce, hr⟩ => hrecord nonce r r' hr

/-- Record by record, nothing but the envelope changes. -/
theorem bare_of_rewrapAll {α β γ : Type} {nonces : Nat → Nonce}
    {rewrap : Nonce → α → Except Failure β} {bare : α → γ} {bare' : β → γ}
    {rs : List α} {rs' : List β}
    (h : rewrapAll rewrap nonces rs = .ok rs')
    (hrecord : ∀ nonce r r', rewrap nonce r = .ok r' →
      bare' r' = bare r) :
    rs'.map bare' = rs.map bare := by
  have hpairs := forall₂_of_rewrapAll h
  have hsame : List.Forall₂ (· = ·) (rs'.map bare') (rs.map bare) := by
    rw [List.forall₂_map_left_iff, List.forall₂_map_right_iff]
    exact hpairs.flip.imp fun r' r ⟨nonce, hr⟩ => hrecord nonce r r' hr
  rw [List.forall₂_eq_eq_eq] at hsame
  exact hsame

/-- Where nothing is read after, nothing was before. -/
theorem Carried.eq_none {before after : List (Option String)}
    (h : Carried before after) (hafter : ∀ y ∈ after, y = none) :
    ∀ x ∈ before, x = none := by
  induction h with
  | nil => simp
  | @cons x y xs ys hxy _ ih =>
      rw [List.forall_mem_cons] at hafter ⊢
      refine ⟨?_, ih hafter.2⟩
      cases x with
      | none => rfl
      | some text =>
          rw [hafter.1] at hxy
          exact absurd (hxy text rfl) (by simp)

/-- Where nothing was read before there is nothing to carry. -/
theorem carried_of_none {before after : List (Option String)}
    (hlength : before.length = after.length)
    (h : ∀ x ∈ before, x = none) : Carried before after := by
  induction before generalizing after with
  | nil =>
      obtain rfl := List.length_eq_zero_iff.mp hlength.symm
      exact .nil
  | cons x xs ih =>
      cases after with
      | nil => cases hlength
      | cons y ys =>
          rw [List.forall_mem_cons] at h
          refine .cons (fun text htext => ?_)
            (ih (Nat.succ_inj.mp hlength) h.2)
          rw [h.1] at htext
          cases htext

/-- Where records are left as they are, each is either unread before or
read the same after. -/
theorem carried_map_iff {α : Type} {read read' : α → Option String}
    {rs : List α} :
    Carried (rs.map read) (rs.map read')
      ↔ ∀ r ∈ rs, ∀ text, read r = some text → read' r = some text := by
  unfold Carried
  rw [List.forall₂_map_left_iff, List.forall₂_map_right_iff,
    List.forall₂_same]

-- ====== stores

/-- A store sealed anew: everything in it is carried over, and nothing but
its envelopes differs. -/
theorem carried_store {crypto : Crypto} {master master' : MasterKey}
    {current next : Key} (hcurrent : master.key? = some current)
    (hnext : master'.key? = some next) {nonces : Nat → Nonce}
    {f : StoreFile} {store store' : f.Store}
    (h : rewrapStore crypto current next nonces f store = .ok store') :
    Carried (f.reads crypto master store) (f.reads crypto master' store')
      ∧ f.bare store' = f.bare store := by
  unfold StoreFile.reads
  rw [hcurrent, hnext]
  cases f with
  | environment =>
      obtain ⟨vars, hvars, h⟩ := Result.bind_eq_ok.mp h
      obtain rfl := Except.ok.inj h
      have hbare := bare_of_rewrapAll hvars
        fun nonce r r' hr => (carried_variable hr).2
      refine ⟨carried_of_rewrapAll hvars
        fun nonce r r' hr => (carried_variable hr).1, ?_⟩
      show ({ store with vars := vars.map Variable.bare } : EnvironmentStore)
        = { store with vars := store.vars.map Variable.bare }
      rw [hbare]
  | dnsProvider =>
      exact ⟨carried_of_rewrapAll h
          fun nonce r r' hr => (carried_credential hr).1,
        bare_of_rewrapAll h
          fun nonce r r' hr => (carried_credential hr).2⟩
  | mailbox =>
      exact ⟨carried_of_rewrapAll h
          fun nonce r r' hr => (carried_mailbox hr).1,
        bare_of_rewrapAll h
          fun nonce r r' hr => (carried_mailbox hr).2⟩

/-- What opens under a key opens under no key apart from it. -/
theorem openText_apart {crypto : Crypto} {a b : Key} {aad text : String}
    {accepts : Envelope → Bool} {valid : String → Bool} {e : Envelope}
    (hapart : crypto.cipher.Apart a b)
    (h : openText crypto a aad accepts valid e = some text) :
    openText crypto b aad accepts valid e = none := by
  unfold openText at h ⊢
  split at h
  · rename_i he
    rw [if_pos he, hapart aad e text (Option.filter_eq_some_iff.mp h).1]
    rfl
  · cases h

/-- Reading again under a key apart from the one before: what was read is
lost. -/
theorem carried_apart_iff {α : Type} {read read' : α → Option String}
    {rs : List α} (hlost : ∀ r ∈ rs, ∀ text, read r = some text →
      read' r = none) :
    Carried (rs.map read) (rs.map read')
      ↔ ∀ x ∈ rs.map read, x = none := by
  rw [carried_map_iff]
  simp only [List.forall_mem_map]
  refine forall₂_congr fun r hr => ?_
  constructor
  · intro hsame
    cases hread : read r with
    | none => rfl
    | some text =>
        have hkept := hsame text hread
        rw [hlost r hr text hread] at hkept
        cases hkept
  · intro hnone text htext
    rw [hnone] at htext
    cases htext

/-- A store that is left as it is. -/
theorem carried_unchanged_iff {crypto : Crypto} {master master' : MasterKey}
    {current next : Key} (hcurrent : master.key? = some current)
    (hnext : master'.key? = some next)
    (hapart : crypto.cipher.Apart current next) {f : StoreFile}
    (store : f.Store) :
    Carried (f.reads crypto master store) (f.reads crypto master' store)
      ↔ ∀ x ∈ f.reads crypto master store, x = none := by
  unfold StoreFile.reads
  rw [hcurrent, hnext]
  cases f with
  | environment =>
      refine carried_apart_iff fun r _ text htext => ?_
      simp only [Option.bind_some, Variable.decryptValue] at htext ⊢
      cases hvalue : r.value with
      | plain value => rfl
      | secret e =>
          rw [hvalue] at htext
          exact openText_apart hapart htext
  | dnsProvider =>
      exact carried_apart_iff fun r _ text htext =>
        openText_apart hapart htext
  | mailbox =>
      exact carried_apart_iff fun r _ text htext =>
        openText_apart hapart htext

-- ====== places

namespace Rotation

variable {c : Rotation} {w₀ w : World} {p : Prepared}

/-- Where a component takes different keys from the two master keys, an
envelope that opens under the one does not open under the other. -/
def KeysApart (c : Rotation) : Prop :=
  ∀ (s : OtherSecret) (a b : Key), s.keyOf c.currentMasterKey = some a →
    s.keyOf c.nextMasterKey = some b → a ≠ b → c.crypto.cipher.Apart a b

/-- The keys of a rotation are those its components take. -/
theorem key?_of_keys {current next : Key}
    (h : c.keys = .ok (current, next)) :
    c.currentMasterKey.key? = some current
      ∧ c.nextMasterKey.key? = some next ∧ current ≠ next := by
  unfold keys at h
  split at h
  · cases h
  · obtain ⟨current', hcurrent, h⟩ := Result.bind_eq_ok.mp h
    obtain ⟨next', hnext, h⟩ := Result.bind_eq_ok.mp h
    split at h
    · cases h
    · rename_i hne
      obtain ⟨rfl, rfl⟩ := Prod.mk.inj (Except.ok.inj h)
      exact ⟨MasterKey.key?_of_rootKey hcurrent,
        MasterKey.key?_of_rootKey hnext, hne⟩

/-- The rows a commit leaves. -/
theorem table_nextAuth (h : c.prepared w₀ = .ok p) (t : TableName) :
    ((c.nextAuth w₀ p).table t).map MfaTable.rows
      = (w₀.auth.table t).map fun _ =>
          (p.nextRows t).map AuthDb.resealed := by
  obtain ⟨current, next, -, -, hrows, -⟩ := prepared_eq_ok h
  have hfst := map_fst_of_rewrapMfaRows (hrows t)
  unfold AuthDb.rows at hfst
  show ((w₀.auth.table t).bind
    (AuthDb.updateSecrets · (p.nextRows t))).map MfaTable.rows = _
  cases htable : w₀.auth.table t with
  | none => rfl
  | some table =>
      rw [htable] at hfst
      have hrows₀ : table.rows = [] ++ (p.nextRows t).map (·.1) :=
        hfst.symm
      obtain ⟨table', hupdated, hrows'⟩ := AuthDb.updateSecrets_eq hrows₀
      show (AuthDb.updateSecrets table (p.nextRows t)).map _ = _
      rw [hupdated]
      exact congrArg some hrows'

theorem rows_nextAuth (h : c.prepared w₀ = .ok p) (t : TableName) :
    (c.nextAuth w₀ p).rows t = (p.nextRows t).map AuthDb.resealed := by
  have htable := table_nextAuth h t
  obtain ⟨current, next, -, -, hrows, -⟩ := prepared_eq_ok h
  have hfst := map_fst_of_rewrapMfaRows (hrows t)
  unfold AuthDb.rows at hfst ⊢
  cases hnext : (c.nextAuth w₀ p).table t with
  | none =>
      rw [hnext] at htable
      cases hbefore : w₀.auth.table t with
      | none =>
          rw [hbefore] at hfst
          rw [List.map_eq_nil_iff.mp hfst]
          rfl
      | some table =>
          rw [hbefore] at htable
          cases htable
  | some table =>
      rw [hnext] at htable
      obtain ⟨_, -, hsame⟩ := Option.map_eq_some_iff.mp htable.symm
      exact hsame.symm

/-- The second factors are carried over where the vault takes the next
master key, or had nothing to open. -/
theorem carried_secondFactors_iff (hprepared : c.prepared w₀ = .ok p)
    (hauth : w.auth = c.nextAuth w₀ p) (t : TableName) :
    Carried (reads c.crypto c.currentMasterKey w₀ (.secondFactors t))
        (reads c.crypto c.nextMasterKey w (.secondFactors t))
      ↔ (∀ x ∈ reads c.crypto c.currentMasterKey w₀ (.secondFactors t),
          x = none) ∨ c.nextMasterKey.vaultKey?.isSome = true := by
  obtain ⟨current, next, hkeys, -, hrows, -⟩ := prepared_eq_ok hprepared
  obtain ⟨hcurrent, hnext, -⟩ := key?_of_keys hkeys
  have hlength : (w₀.auth.rows t).length = (w.auth.rows t).length := by
    rw [hauth, rows_nextAuth hprepared,
      ← map_fst_of_rewrapMfaRows (hrows t)]
    simp
  simp only [reads]
  constructor
  · intro hcarried
    by_cases hvault : c.nextMasterKey.vaultKey?.isSome = true
    · exact .inr hvault
    · left
      refine hcarried.eq_none fun y hy => ?_
      obtain ⟨row, -, rfl⟩ := List.mem_map.mp hy
      unfold MfaRow.read
      rw [Option.not_isSome_iff_eq_none.mp hvault]
      rfl
  · rintro (hnone | hvault)
    · exact carried_of_none (by simp [hlength]) hnone
    · obtain ⟨key, hkey⟩ := Option.isSome_iff_exists.mp hvault
      have hsame : key = next := Option.some.inj
        ((MasterKey.key?_of_vaultKey? hkey).symm.trans hnext)
      rw [hauth, rows_nextAuth hprepared, List.map_map]
      refine carried_of_rewrapAll (hrows t) fun nonce row pair hrow => ?_
      intro text htext
      have hread := (carried_row hrow).1
      unfold MfaRow.read at htext
      obtain ⟨key', hkey', htext⟩ := Option.bind_eq_some_iff.mp htext
      have hsame' : key' = current := Option.some.inj
        ((MasterKey.key?_of_vaultKey? hkey').symm.trans hcurrent)
      show (c.nextMasterKey.vaultKey?.bind fun key => vaultDecrypt c.crypto
        key _ _) = some text
      rw [hkey, hsame]
      exact hread text (hsame' ▸ htext)

/-- A store file is carried over where the rotation takes it, or its
component had nothing to open. -/
theorem carried_file_iff (hprepared : c.prepared w₀ = .ok p)
    (hfile : ∀ f, w.file f
      = if c.present w₀ f then p.next f else w₀.file f)
    (hapart : KeysApart c) (f : StoreFile) :
    Carried (reads c.crypto c.currentMasterKey w₀ (.store f))
        (reads c.crypto c.nextMasterKey w (.store f))
      ↔ (c.given f = false →
          ∀ x ∈ reads c.crypto c.currentMasterKey w₀ (.store f),
            x = none) := by
  obtain ⟨current, next, hkeys, hnextFile, -⟩ := prepared_eq_ok hprepared
  obtain ⟨hcurrent, hnext, hne⟩ := key?_of_keys hkeys
  have hf := hnextFile f
  simp only [reads]
  rw [hfile f]
  cases hbefore : w₀.file f with
  | none =>
      have habsent : c.present w₀ f = false := by
        unfold Rotation.present
        rw [hbefore]
        simp
      rw [habsent]
      exact iff_of_true .nil fun _ x hx => (by cases hx)
  | some content =>
      cases hgiven : c.given f with
      | true =>
          have hpresent : c.present w₀ f = true := by
            unfold Rotation.present
            rw [hbefore, hgiven]
            rfl
          unfold nextFile at hf
          rw [if_pos hpresent, hbefore] at hf
          obtain ⟨content', hrewrapped, hsome⟩ := Result.map_eq_ok.mp hf
          rw [hpresent, if_pos rfl, ← hsome]
          refine iff_of_true ?_ fun hfalse => (by cases hfalse)
          cases content with
          | stored store =>
              obtain ⟨store', hstore, rfl⟩ := Result.map_eq_ok.mp hrewrapped
              exact (carried_store hcurrent hnext hstore).1
          | invalid _ => cases hrewrapped
          | notJson _ => cases hrewrapped
      | false =>
          have habsent : c.present w₀ f = false := by
            unfold Rotation.present
            rw [hgiven]
            rfl
          rw [habsent]
          simp only [true_imp_iff]
          cases content with
          | stored store =>
              exact carried_unchanged_iff hcurrent hnext
                (hapart (.powerDns "") current next hcurrent hnext hne) store
          | invalid _ => exact iff_of_true .nil fun x hx => (by cases hx)
          | notJson _ => exact iff_of_true .nil fun x hx => (by cases hx)

/-- The secrets of the other components are carried over where none of
them opened, or the component takes the same key from both master keys. -/
theorem carried_others_iff (hothers : w.others = w₀.others)
    (hapart : KeysApart c) :
    Carried (reads c.crypto c.currentMasterKey w₀ .others)
        (reads c.crypto c.nextMasterKey w .others)
      ↔ ∀ secret ∈ w₀.others,
          secret.1.decrypt c.crypto c.currentMasterKey secret.2 = none
            ∨ secret.1.keyOf c.currentMasterKey
              = secret.1.keyOf c.nextMasterKey := by
  simp only [reads]
  rw [hothers, carried_map_iff]
  refine forall₂_congr fun secret _ => ?_
  obtain ⟨s, e⟩ := secret
  unfold OtherSecret.decrypt
  dsimp only
  cases hcurrent : s.keyOf c.currentMasterKey with
  | none => simp
  | some a =>
      rw [Option.bind_some]
      cases hnext : s.keyOf c.nextMasterKey with
      | none =>
          simp only [Option.bind_none, reduceCtorEq, imp_false, or_false]
          rw [Option.eq_none_iff_forall_ne_some]
      | some b =>
          rw [Option.bind_some]
          by_cases hab : a = b
          · subst hab
            exact iff_of_true (fun _ h => h) (.inr rfl)
          · have hlost : ∀ text, openText c.crypto a s.aad s.accepts
                (fun _ => true) e = some text →
                openText c.crypto b s.aad s.accepts (fun _ => true) e
                  = none :=
              fun _ => openText_apart (hapart s a b hcurrent hnext hab)
            constructor
            · intro hsame
              left
              cases hopen : openText c.crypto a s.aad s.accepts
                  (fun _ => true) e with
              | none => rfl
              | some text =>
                  have hkept := hsame text hopen
                  rw [hlost text hopen] at hkept
                  cases hkept
            · rintro (hnone | hsame) text htext
              · rw [hnone] at htext
                cases htext
              · exact absurd (Option.some.inj hsame) hab

/-- Whatever a rotation changes is an envelope, or the record of it. -/
theorem Rotated.onlyEnvelopesDiffer (h : Rotated c w₀ w) :
    OnlyEnvelopesDiffer c.eventAt w₀ w := by
  obtain ⟨p, hprepared, hauth, hfile⟩ := h.exists_prepared
  obtain ⟨current, next, hkeys, hnextFile, hrows, -⟩ :=
    prepared_eq_ok hprepared
  obtain ⟨hcurrent, hnext, -⟩ := key?_of_keys hkeys
  refine ⟨fun t => ?_, ?_, fun f => ?_, h.others⟩
  · have htable := table_nextAuth hprepared t
    rw [← hauth] at htable
    have hbare : (p.nextRows t).map
          (fun pair => (AuthDb.resealed pair).bare)
        = (w₀.auth.rows t).map MfaRow.bare :=
      bare_of_rewrapAll (hrows t)
        fun nonce row pair hrow => (carried_row hrow).2
    have hmap := congrArg (Option.map (List.map MfaRow.bare)) htable
    rw [Option.map_map, Option.map_map] at hmap
    refine hmap.trans (Option.map_congr fun table htable => ?_)
    show ((p.nextRows t).map AuthDb.resealed).map MfaRow.bare = _
    rw [List.map_map]
    refine hbare.trans ?_
    unfold AuthDb.rows
    rw [htable]
    rfl
  · rw [hauth]
    rfl
  · rw [hfile f]
    by_cases hpresent : c.present w₀ f = true
    · rw [if_pos hpresent]
      have hf := hnextFile f
      unfold nextFile at hf
      rw [if_pos hpresent] at hf
      cases hbefore : w₀.file f with
      | none =>
          rw [hbefore] at hf
          rw [← Except.ok.inj hf]
      | some content =>
          rw [hbefore] at hf
          obtain ⟨content', hrewrapped, hsome⟩ := Result.map_eq_ok.mp hf
          rw [← hsome]
          cases content with
          | stored store =>
              obtain ⟨store', hstore, rfl⟩ := Result.map_eq_ok.mp hrewrapped
              have hbare := (carried_store hcurrent hnext hstore).2
              exact congrArg (some ∘ Content.stored) hbare
          | invalid _ => cases hrewrapped
          | notJson _ => cases hrewrapped
    · rw [if_neg hpresent]

/-- Everything a component can open is something the rotation takes: the
vault takes the next master key or has no second factor it could open, a
store file whose path is not given has nothing its component could open,
and no other component has, unless both master keys give it one key. -/
def Covered (c : Rotation) (w₀ : World) : Prop :=
  (∀ t, (∀ x ∈ reads c.crypto c.currentMasterKey w₀ (.secondFactors t),
      x = none) ∨ c.nextMasterKey.vaultKey?.isSome = true)
    ∧ (∀ f, c.given f = false →
      ∀ x ∈ reads c.crypto c.currentMasterKey w₀ (.store f), x = none)
    ∧ ∀ secret ∈ w₀.others,
      secret.1.decrypt c.crypto c.currentMasterKey secret.2 = none
        ∨ secret.1.keyOf c.currentMasterKey
          = secret.1.keyOf c.nextMasterKey

/-- After a rotation that returns: nothing but envelopes differs, and every
secret a component could open under the current master key opens to the
same text under the next one, exactly where the rotation takes them
all. -/
theorem carries_over_iff (c : Rotation) (auth : AuthDb)
    (file : (f : StoreFile) → Option (Content f.Store))
    (others : List (OtherSecret × Envelope)) (hapart : KeysApart c)
    (hreturns : (c.rotateSecretMasterKey.run
      (.before auth file others)).1 = .ok ⟨⟩) :
    let w₀ := World.before auth file others
    let w := (c.rotateSecretMasterKey.run w₀).2
    (OnlyEnvelopesDiffer c.eventAt w₀ w
        ∧ ∀ place, Carried (reads c.crypto c.currentMasterKey w₀ place)
          (reads c.crypto c.nextMasterKey w place))
      ↔ c.Covered w₀ := by
  intro w₀ w
  have hrotated : Rotated c w₀ w := (meets_rotateSecretMasterKey
    (untouched_before auth file others)).1 ⟨⟩ hreturns
  obtain ⟨p, hprepared, hauth, hfile⟩ := hrotated.exists_prepared
  have hfactors := carried_secondFactors_iff hprepared hauth
  have hfiles := carried_file_iff hprepared hfile hapart
  have hothers := carried_others_iff hrotated.others hapart
  constructor
  · rintro ⟨-, hcarried⟩
    exact ⟨fun t => (hfactors t).mp (hcarried (.secondFactors t)),
      fun f => (hfiles f).mp (hcarried (.store f)),
      hothers.mp (hcarried .others)⟩
  · rintro ⟨htables, hstores, hrest⟩
    refine ⟨hrotated.onlyEnvelopesDiffer, fun place => ?_⟩
    cases place with
    | secondFactors t => exact (hfactors t).mpr (htables t)
    | store f => exact (hfiles f).mpr (hstores f)
    | others => exact hothers.mpr hrest

end Rotation

-- ====== a sample

theorem keysApart_sample (fails : Op → Option String) :
    Rotation.KeysApart (sampleRotation fails) := by
  intro s a b ha hb _ aad e text hopen
  have hkeys : a.bytes = List.replicate 32 0x11
      ∧ b.bytes = List.replicate 32 0x22 := by
    cases s with
    | cachePolicy _ => cases ha
    | _ =>
        obtain rfl := Option.some.inj ha
        obtain rfl := Option.some.inj hb
        exact ⟨rfl, rfl⟩
  have htag : e.tag = a.bytes.take 16 := by
    by_contra hne
    have hnone : sampleCipher.decrypt a aad e = none := if_neg hne
    rw [show sampleCipher.decrypt a aad e = some text from hopen] at hnone
    cases hnone
  refine if_neg ?_
  rw [htag, hkeys.1, hkeys.2]
  decide

/-- A database credential, sealed under the current key. -/
def sampleOthers : List (OtherSecret × Envelope) :=
  [(.databaseCredential "id" "binding" "ydb_app" "localhost",
    sealText sampleCrypto sampleKey ⟨List.replicate 12 0, List.length_replicate⟩
      "database-credential:id:binding:ydb_app:localhost"
      "database-password")]

theorem carries_over_iff_sample :
    let c := sampleRotation fun _ => none
    let w₀ := World.before sampleAuth sampleFile []
    let w := (c.rotateSecretMasterKey.run w₀).2
    (OnlyEnvelopesDiffer c.eventAt w₀ w
        ∧ ∀ place, Carried (reads c.crypto c.currentMasterKey w₀ place)
          (reads c.crypto c.nextMasterKey w place))
      ↔ c.Covered w₀ :=
  Rotation.carries_over_iff (sampleRotation fun _ => none) sampleAuth
    sampleFile [] (keysApart_sample _) (by decide +kernel)

/-- A database credential is left under the current key. -/
theorem credential_left_behind :
    ¬ ∀ (c : Rotation) (auth : AuthDb)
      (file : (f : StoreFile) → Option (Content f.Store))
      (others : List (OtherSecret × Envelope)), Rotation.KeysApart c →
      (c.rotateSecretMasterKey.run (.before auth file others)).1
        = .ok ⟨⟩ →
      let w₀ := World.before auth file others
      let w := (c.rotateSecretMasterKey.run w₀).2
      OnlyEnvelopesDiffer c.eventAt w₀ w
        ∧ ∀ place, Carried (reads c.crypto c.currentMasterKey w₀ place)
          (reads c.crypto c.nextMasterKey w place) := by
  intro h
  have hcarried := (h (sampleRotation fun _ => none) sampleAuth sampleFile
    sampleOthers (keysApart_sample _) (by decide +kernel)).2 .others
  have hbefore : reads sampleCrypto (.buffer (List.replicate 32 0x11))
      (.before sampleAuth sampleFile sampleOthers) .others
        = [some "database-password"] := by decide +kernel
  have hafter : reads sampleCrypto (.buffer (List.replicate 32 0x22))
      ((sampleRotation fun _ => none).rotateSecretMasterKey.run
        (.before sampleAuth sampleFile sampleOthers)).2 .others
        = [none] := by decide +kernel
  have hlost : Carried [some "database-password"] [none] := by
    rw [← hbefore, ← hafter]
    exact hcarried
  cases hlost with
  | cons htext _ => cases htext "database-password" rfl

end Yunpanel.Secrets
