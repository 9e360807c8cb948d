/-
The graph lists for each resource the websites and domains that reach it.

# What reaches a resource

A website owns an application or a Docker project by its record and a
database by a binding; a domain owns the mail of its mail domain. What else
reaches a resource does so through a domain's website: the domains of a
website that owns it, and the website of a domain that does
(`WebsiteReaches`, `DomainReaches`).

# The proof

`readSorted` is taken apart once: what it returns is known by its members
(`mem_readSorted`) and does not depend on the order of the list
(`readSorted_perm`). Everything after it is a function of the sorted lists.
-/
import Mathlib.Data.List.Dedup
import Yunpanel.Backup.DependencyGraph

namespace Yunpanel.Backup.DependencyGraph

open Lib Lib.Result

-- ====== lists

section lists

variable {α β : Type} {label : String} {isScoped : α → Bool}
  {reference : α → Except Failure β} {id : β → Uuid} {duplicated : Failure}
  {values values' : List α} {r : List β}

theorem boundedArray_eq_ok {rest : List α} :
    boundedArray values label = .ok rest
      ↔ values.length ≤ maxItems ∧ rest = values := by
  unfold boundedArray
  by_cases hroom : values.length ≤ maxItems
  · simp [hroom, eq_comm]
  · simp [hroom]

theorem readSorted_eq_ok :
    readSorted label isScoped reference id duplicated values = .ok r
      ↔ values.length ≤ maxItems
        ∧ ∃ read, List.Forall₂ (fun a b => reference a = .ok b)
            (values.filter isScoped) read
          ∧ (read.map id).Nodup
          ∧ r = Text.collateOn (fun entry => (id entry).text) read := by
  have hsorted : ∀ read : List β,
      ((Text.collateOn (fun entry => (id entry).text) read).map id).Nodup
        ↔ (read.map id).Nodup := fun read =>
    ((Text.collateOn_perm _ read).map id).nodup_iff
  unfold readSorted
  simp only [bind_eq_ok, boundedArray_eq_ok, mapM_eq_ok_iff, ensure_eq_ok,
    decide_eq_true_eq, hsorted]
  constructor
  · rintro ⟨_, ⟨hroom, rfl⟩, read, hread, _, hnodup, h⟩
    exact ⟨hroom, read, hread, hnodup, (Except.ok.inj h).symm⟩
  · rintro ⟨hroom, read, hread, hnodup, rfl⟩
    exact ⟨values, ⟨hroom, rfl⟩, read, hread, ⟨⟩, hnodup, rfl⟩

theorem readSorted_perm (hperm : values.Perm values')
    (h : readSorted label isScoped reference id duplicated values = .ok r) :
    readSorted label isScoped reference id duplicated values' = .ok r := by
  obtain ⟨hroom, read, hread, hnodup, rfl⟩ := readSorted_eq_ok.mp h
  obtain ⟨read', hread', hsame⟩ :=
    forall₂_of_perm hread (hperm.filter isScoped)
  refine readSorted_eq_ok.mpr ⟨hperm.length_eq ▸ hroom, read', hread',
    (hsame.map id).nodup_iff.mp hnodup, ?_⟩
  refine Text.collateOn_congr hsame ?_
  have htext : Function.Injective Uuid.text := fun _ _ => Uuid.ext_text
  have hmap := hnodup.map htext
  rwa [List.map_map] at hmap

theorem nodup_readSorted
    (h : readSorted label isScoped reference id duplicated values = .ok r) :
    (r.map id).Nodup := by
  obtain ⟨-, read, -, hnodup, rfl⟩ := readSorted_eq_ok.mp h
  exact ((Text.collateOn_perm _ read).map id).nodup_iff.mpr hnodup

theorem mem_readSorted
    (h : readSorted label isScoped reference id duplicated values = .ok r)
    (b : β) :
    b ∈ r ↔ ∃ a ∈ values, isScoped a = true ∧ reference a = .ok b := by
  obtain ⟨-, read, hread, -, rfl⟩ := readSorted_eq_ok.mp h
  rw [(Text.collateOn_perm _ read).mem_iff]
  constructor
  · intro hb
    obtain ⟨a, ha, hab⟩ := exists_of_forall₂ hread hb
    obtain ⟨hmem, hscoped⟩ := List.mem_filter.mp ha
    exact ⟨a, hmem, hscoped, hab⟩
  · rintro ⟨a, hmem, hscoped, hab⟩
    obtain ⟨b', hb', hab'⟩ := exists_of_forall₂ hread.flip
      (List.mem_filter.mpr ⟨hmem, hscoped⟩)
    rw [hab] at hab'
    exact Except.ok.inj hab' ▸ hb'

end lists

-- ====== inventory

/-- What an inventory holds: exactly the records of the server, as they are
referred to, each identifier once. -/
structure Holds (input : Input) (inventory : Inventory) : Prop where
  server : uuid input.serverId "serverId" = .ok inventory.serverId
  resources : inventory.resources = input.resources
  websites : ∀ w, w ∈ inventory.websites ↔ ∃ record ∈ input.websites,
    record.serverId = inventory.serverId.text
      ∧ websiteReference record = .ok w
  domains : ∀ d, d ∈ inventory.domains ↔ ∃ record ∈ input.domains,
    record.serverId = inventory.serverId.text
      ∧ domainReference record = .ok d
  bindings : ∀ b, b ∈ inventory.bindings ↔ ∃ record ∈ input.databaseBindings,
    record.serverId = inventory.serverId.text
      ∧ databaseBindingReference record = .ok b
  mailDomains : ∀ m, m ∈ inventory.mailDomains ↔
    ∃ record ∈ input.mailDomains, record.managementMode = "local"
      ∧ mailDomainReference record = .ok m

/-- The identifiers of an inventory are told apart, and lead somewhere. -/
structure Joined (inventory : Inventory) : Prop where
  identities : (inventory.resources.map Resource.identity).Nodup
  websites : (inventory.websites.map Website.id).Nodup
  domains : (inventory.domains.map Domain.id).Nodup
  mailDomains : (inventory.mailDomains.map MailDomain.id).Nodup
  hosted : ∀ d ∈ inventory.domains, ∀ id, d.websiteId = some id →
    ∃ w ∈ inventory.websites, w.id = id
  bound : ∀ b ∈ inventory.bindings,
    ∃ w ∈ inventory.websites, w.id = b.websiteId
  mailed : ∀ m ∈ inventory.mailDomains,
    ∃ d ∈ inventory.domains, d.id = m.webDomainId

/-- No two bindings are of one database. -/
def Separate (toLowerCase : String → String) (inventory : Inventory) : Prop :=
  (inventory.bindings.map fun b => toLowerCase b.databaseName).Nodup

variable {toLowerCase : String → String} {input input' : Input}
  {inventory : Inventory} {serverId : Uuid}

variable {resources : List Resource} {websites : List Website}

theorem readResources_eq_ok {read : List Resource} :
    readResources serverId resources = .ok read
      ↔ resources.length ≤ maxItems
        ∧ (∀ r ∈ resources, isResourceId r.identity = true
          ∧ r.serverId = serverId.text)
        ∧ (resources.map Resource.identity).Nodup ∧ read = resources := by
  have hrecord : ∀ r r', resourceRecord serverId r = .ok r'
      ↔ (isResourceId r.identity = true ∧ r.serverId = serverId.text)
        ∧ r' = id r := by
    intro r r'
    unfold resourceRecord
    by_cases hcond : (isResourceId r.identity
        && r.serverId == serverId.text) = true
    · rw [if_pos hcond]
      rw [Bool.and_eq_true, beq_iff_eq] at hcond
      simp [hcond, eq_comm]
    · rw [if_neg hcond]
      rw [Bool.and_eq_true, beq_iff_eq] at hcond
      simp [hcond]
  unfold readResources
  simp only [bind_eq_ok, boundedArray_eq_ok, mapM_eq_ok_iff, hrecord,
    forall₂_eq_map, List.map_id, ensure_eq_ok, decide_eq_true_eq]
  constructor
  · rintro ⟨_, ⟨hroom, rfl⟩, _, ⟨hall, rfl⟩, _, hnodup, h⟩
    exact ⟨hroom, hall, hnodup, (Except.ok.inj h).symm⟩
  · rintro ⟨hroom, hall, hnodup, rfl⟩
    exact ⟨_, ⟨hroom, rfl⟩, _, ⟨hall, rfl⟩, ⟨⟩, hnodup, rfl⟩

/-- The two checks of a loop, for every entry. -/
theorem forM_ensure_eq_ok {α : Type} {e e' : Failure} {p q : α → Bool}
    {as : List α} {u : PUnit} :
    (as.forM fun a => do
        Result.ensure e (p a)
        Result.ensure e' (q a)) = .ok u
      ↔ ∀ a ∈ as, p a = true ∧ q a = true := by
  rw [forM_eq_ok]
  simp only [bind_eq_ok, ensure_eq_ok, exists_unit]

theorem readWebsites_eq_ok {websites : List WebsiteRecord}
    {r : List Website} :
    readWebsites serverId resources websites = .ok r
      ↔ readSorted "Website"
          (fun website : WebsiteRecord => website.serverId == serverId.text)
          websiteReference Website.id
          (refuse "backup_dependency_website_duplicate"
            "Website dependency identities are duplicated") websites = .ok r
        ∧ r.all (fun website => website.applicationId.all fun id =>
          hasApplication resources id.text) = true := by
  unfold readWebsites
  simp only [bind_eq_ok, ensure_eq_ok]
  constructor
  · rintro ⟨_, hread, _, hall, h⟩
    obtain rfl := Except.ok.inj h
    exact ⟨hread, hall⟩
  · rintro ⟨hread, hall⟩
    exact ⟨_, hread, ⟨⟩, hall, rfl⟩

theorem readDomains_eq_ok {domains : List DomainRecord} {r : List Domain} :
    readDomains serverId websites domains = .ok r
      ↔ readSorted "Domain"
          (fun domain : DomainRecord => domain.serverId == serverId.text)
          domainReference Domain.id
          (refuse "backup_dependency_domain_duplicate"
            "Domain dependency identities are duplicated") domains = .ok r
        ∧ r.all (fun domain => domain.websiteId.all fun id =>
          websites.any fun website => website.id == id) = true := by
  unfold readDomains
  simp only [bind_eq_ok, ensure_eq_ok]
  constructor
  · rintro ⟨_, hread, _, hall, h⟩
    obtain rfl := Except.ok.inj h
    exact ⟨hread, hall⟩
  · rintro ⟨hread, hall⟩
    exact ⟨_, hread, ⟨⟩, hall, rfl⟩

theorem readBindings_eq_ok {bindings : List BindingRecord}
    {r : List Binding} :
    readBindings toLowerCase serverId resources websites bindings = .ok r
      ↔ readSorted "Database binding"
          (fun binding : BindingRecord => binding.serverId == serverId.text)
          databaseBindingReference Binding.id
          (refuse "backup_dependency_database_binding_duplicate"
            "Database binding identities are duplicated") bindings = .ok r
        ∧ ∀ binding ∈ r,
          (websites.any fun website => website.id == binding.websiteId
            && website.applicationId == some binding.applicationId) = true
          ∧ hasDatabase toLowerCase resources binding.databaseName = true := by
  unfold readBindings
  constructor
  · intro h
    obtain ⟨list, hread, h⟩ := bind_eq_ok.mp h
    obtain ⟨_, hall, h⟩ := bind_eq_ok.mp h
    obtain rfl := Except.ok.inj h
    exact ⟨hread, forM_ensure_eq_ok.mp hall⟩
  · rintro ⟨hread, hall⟩
    exact bind_eq_ok.mpr ⟨r, hread,
      bind_eq_ok.mpr ⟨⟨⟩, forM_ensure_eq_ok.mpr hall, rfl⟩⟩

theorem readMailDomains_eq_ok {domains : List Domain}
    {mailDomains : List MailDomainRecord} {r : List MailDomain} :
    readMailDomains resources domains mailDomains = .ok r
      ↔ readSorted "Mail Domain"
          (fun mailDomain : MailDomainRecord =>
            mailDomain.managementMode == "local"
              && mailDomain.webDomainId.isSome)
          mailDomainReference MailDomain.id
          (refuse "backup_dependency_mail_domain_duplicate"
            "Mail Domain identities are duplicated") mailDomains = .ok r
        ∧ ∀ mailDomain ∈ r,
          (domains.any fun domain => domain.id == mailDomain.webDomainId) = true
          ∧ hasMail resources mailDomain.id.text = true := by
  unfold readMailDomains
  constructor
  · intro h
    obtain ⟨list, hread, h⟩ := bind_eq_ok.mp h
    obtain ⟨_, hall, h⟩ := bind_eq_ok.mp h
    obtain rfl := Except.ok.inj h
    exact ⟨hread, forM_ensure_eq_ok.mp hall⟩
  · rintro ⟨hread, hall⟩
    exact bind_eq_ok.mpr ⟨r, hread,
      bind_eq_ok.mpr ⟨⟨⟩, forM_ensure_eq_ok.mpr hall, rfl⟩⟩

/-- The lists of an inventory, read one after the other. -/
theorem readInventory_eq_ok :
    readInventory toLowerCase input = .ok inventory
      ↔ uuid input.serverId "serverId" = .ok inventory.serverId
        ∧ readResources inventory.serverId input.resources
          = .ok inventory.resources
        ∧ readWebsites inventory.serverId inventory.resources input.websites
          = .ok inventory.websites
        ∧ readDomains inventory.serverId inventory.websites input.domains
          = .ok inventory.domains
        ∧ readBindings toLowerCase inventory.serverId inventory.resources
            inventory.websites input.databaseBindings = .ok inventory.bindings
        ∧ readMailDomains inventory.resources inventory.domains
            input.mailDomains = .ok inventory.mailDomains := by
  unfold readInventory
  simp only [bind_eq_ok]
  constructor
  · rintro ⟨server, hserver, resources, hresources, websites, hwebsites,
      domains, hdomains, bindings, hbindings, mailDomains, hmail, h⟩
    obtain rfl := Except.ok.inj h
    exact ⟨hserver, hresources, hwebsites, hdomains, hbindings, hmail⟩
  · rintro ⟨hserver, hresources, hwebsites, hdomains, hbindings, hmail⟩
    exact ⟨_, hserver, _, hresources, _, hwebsites, _, hdomains, _, hbindings,
      _, hmail, rfl⟩

theorem holds_of_readInventory
    (h : readInventory toLowerCase input = .ok inventory) :
    Holds input inventory := by
  obtain ⟨hserver, hresources, hwebsites, hdomains, hbindings, hmail⟩ :=
    readInventory_eq_ok.mp h
  have hw := mem_readSorted (readWebsites_eq_ok.mp hwebsites).1
  have hd := mem_readSorted (readDomains_eq_ok.mp hdomains).1
  have hb := mem_readSorted (readBindings_eq_ok.mp hbindings).1
  have hm := mem_readSorted (readMailDomains_eq_ok.mp hmail).1
  simp only [beq_iff_eq] at hw hd hb
  refine ⟨hserver, (readResources_eq_ok.mp hresources).2.2.2, hw, hd, hb,
    fun m => (hm m).trans ?_⟩
  constructor
  · rintro ⟨record, hrecord, hlocal, href⟩
    rw [Bool.and_eq_true, beq_iff_eq] at hlocal
    exact ⟨record, hrecord, hlocal.1, href⟩
  · rintro ⟨record, hrecord, hlocal, href⟩
    refine ⟨record, hrecord, ?_, href⟩
    -- a record without a web domain is not referred to
    unfold mailDomainReference at href
    obtain ⟨webDomainId, hweb, -⟩ := bind_eq_ok.mp href
    rw [demand_eq_ok] at hweb
    rw [hweb, hlocal]
    rfl

theorem joined_of_readInventory
    (h : readInventory toLowerCase input = .ok inventory) :
    Joined inventory := by
  obtain ⟨-, hresources, hwebsites, hdomains, hbindings, hmail⟩ :=
    readInventory_eq_ok.mp h
  obtain ⟨hw, -⟩ := readWebsites_eq_ok.mp hwebsites
  obtain ⟨hd, hhosted⟩ := readDomains_eq_ok.mp hdomains
  obtain ⟨-, hbound⟩ := readBindings_eq_ok.mp hbindings
  obtain ⟨hm, hmailed⟩ := readMailDomains_eq_ok.mp hmail
  obtain ⟨-, -, hidentities, hsame⟩ := readResources_eq_ok.mp hresources
  refine ⟨hsame ▸ hidentities, nodup_readSorted hw, nodup_readSorted hd,
    nodup_readSorted hm, ?_, ?_, ?_⟩
  · intro d hd id hid
    have hall := List.all_eq_true.mp hhosted d hd
    rw [hid, Option.all_some, List.any_eq_true] at hall
    simpa using hall
  · intro b hb
    obtain ⟨w, hw, hcond⟩ := List.any_eq_true.mp (hbound b hb).1
    rw [Bool.and_eq_true, beq_iff_eq] at hcond
    exact ⟨w, hw, hcond.1⟩
  · intro m hm
    obtain ⟨d, hd, hcond⟩ := List.any_eq_true.mp (hmailed m hm).1
    exact ⟨d, hd, beq_iff_eq.mp hcond⟩

-- ====== the order

/-- The same input in another order. -/
structure Shuffled (input input' : Input) : Prop where
  server : input'.serverId = input.serverId
  resources : input.resources.Perm input'.resources
  websites : input.websites.Perm input'.websites
  domains : input.domains.Perm input'.domains
  bindings : input.databaseBindings.Perm input'.databaseBindings
  mailDomains : input.mailDomains.Perm input'.mailDomains

/-- What is read of an input does not depend on its order, the resources
apart. -/
theorem readInventory_shuffled (hshuffled : Shuffled input input')
    (h : readInventory toLowerCase input = .ok inventory) :
    readInventory toLowerCase input'
      = .ok { inventory with resources := input'.resources } := by
  obtain ⟨hserver, hresources, hwebsites, hdomains, hbindings, hmail⟩ :=
    readInventory_eq_ok.mp h
  obtain ⟨hroom, hall, hidentities, hsame⟩ := readResources_eq_ok.mp hresources
  obtain ⟨hw, happlications⟩ := readWebsites_eq_ok.mp hwebsites
  obtain ⟨hd, hhosted⟩ := readDomains_eq_ok.mp hdomains
  obtain ⟨hb, hbound⟩ := readBindings_eq_ok.mp hbindings
  obtain ⟨hm, hmailed⟩ := readMailDomains_eq_ok.mp hmail
  have hany : ∀ p : Resource → Bool,
      input'.resources.any p = inventory.resources.any p := by
    intro p
    rw [hsame]
    exact hshuffled.resources.symm.any_eq
  refine readInventory_eq_ok.mpr ⟨hshuffled.server ▸ hserver, ?_, ?_, ?_, ?_, ?_⟩
  · refine readResources_eq_ok.mpr ⟨hshuffled.resources.length_eq ▸ hroom,
      fun r hr => hall r (hshuffled.resources.mem_iff.mpr hr), ?_, rfl⟩
    exact (hshuffled.resources.map _).nodup_iff.mp hidentities
  · refine readWebsites_eq_ok.mpr ⟨readSorted_perm hshuffled.websites hw, ?_⟩
    unfold hasApplication at happlications ⊢
    simpa only [hany] using happlications
  · exact readDomains_eq_ok.mpr ⟨readSorted_perm hshuffled.domains hd, hhosted⟩
  · refine readBindings_eq_ok.mpr ⟨readSorted_perm hshuffled.bindings hb, ?_⟩
    unfold hasDatabase at hbound ⊢
    simpa only [hany] using hbound
  · refine readMailDomains_eq_ok.mpr
      ⟨readSorted_perm hshuffled.mailDomains hm, ?_⟩
    unfold hasMail at hmailed ⊢
    simpa only [hany] using hmailed

theorem graph_shuffled (hshuffled : Shuffled input input') {graph : Graph}
    (h : createBackupDependencyGraph toLowerCase input = .ok graph) :
    createBackupDependencyGraph toLowerCase input' = .ok graph := by
  unfold createBackupDependencyGraph at h ⊢
  obtain ⟨inventory, hinventory, h⟩ := bind_eq_ok.mp h
  have hsame := (holds_of_readInventory hinventory).resources
  have hidentities := (joined_of_readInventory hinventory).identities
  rw [readInventory_shuffled hshuffled hinventory, ok_bind]
  have hsorted : Text.collateOn Resource.identity input'.resources
      = Text.collateOn Resource.identity inventory.resources := by
    rw [hsame] at hidentities ⊢
    exact (Text.collateOn_congr hshuffled.resources hidentities).symm
  rw [hsorted]
  exact h

-- ====== reaching

section reaching

variable (toLowerCase) (inventory)

/-- The website owns the resource by its record, or by a binding. -/
def WebsiteOwns : Kind → Website → Prop
  | .application id, w => w.applicationId.map Uuid.text = some id
  | .database name, w => ∃ b ∈ inventory.bindings,
      toLowerCase b.databaseName = toLowerCase name ∧ b.websiteId = w.id
  | .dockerStorage id, w => w.dockerProjectId.map Uuid.text = some id
  | .mailData _ _ _, _ => False

/-- The domain owns the mail of the resource. -/
def DomainOwns : Kind → Domain → Prop
  | .mailData _ _ id, d => ∃ m ∈ inventory.mailDomains,
      m.id.text = id ∧ m.webDomainId = d.id
  | _, _ => False

def WebsiteReaches (kind : Kind) (w : Website) : Prop :=
  WebsiteOwns toLowerCase inventory kind w
    ∨ ∃ d ∈ inventory.domains, d.websiteId = some w.id
      ∧ DomainOwns inventory kind d

def DomainReaches (kind : Kind) (d : Domain) : Prop :=
  DomainOwns inventory kind d
    ∨ ∃ w ∈ inventory.websites, d.websiteId = some w.id
      ∧ WebsiteOwns toLowerCase inventory kind w

end reaching

/-- The websites and domains that were found are those that reach the
resource. -/
structure Exact (toLowerCase : String → String) (inventory : Inventory)
    (kind : Kind) (found : Found) : Prop where
  websites : ∀ id, id ∈ found.websiteIds ↔ ∃ w ∈ inventory.websites,
    w.id = id ∧ WebsiteReaches toLowerCase inventory kind w
  domains : ∀ id, id ∈ found.domainIds ↔ ∃ d ∈ inventory.domains,
    d.id = id ∧ DomainReaches toLowerCase inventory kind d

theorem mem_withDomains_domainIds {id : Uuid} :
    id ∈ (inventory.withDomains websites).domainIds
      ↔ ∃ d ∈ inventory.domains, d.id = id
        ∧ ∃ w ∈ websites, d.websiteId = some w.id := by
  simp only [Inventory.withDomains, Inventory.domainsOf, List.mem_flatMap,
    List.mem_map, List.mem_filter, beq_iff_eq]
  constructor
  · rintro ⟨w, hw, d, ⟨hd, hhost⟩, hid⟩
    exact ⟨d, hd, hid, w, hw, hhost⟩
  · rintro ⟨d, hd, hid, w, hw, hhost⟩
    exact ⟨w, hw, d, ⟨hd, hhost⟩, hid⟩

/-- Where websites own a resource and no domain does, they and their domains
are what reaches it. -/
theorem exact_withDomains {kind : Kind}
    (hwebsites : ∀ w, w ∈ websites ↔ w ∈ inventory.websites
      ∧ WebsiteOwns toLowerCase inventory kind w)
    (hdomains : ∀ d, ¬DomainOwns inventory kind d) :
    Exact toLowerCase inventory kind (inventory.withDomains websites) := by
  constructor
  · intro id
    show id ∈ websites.map Website.id ↔ _
    rw [List.mem_map]
    constructor
    · rintro ⟨w, hw, hid⟩
      obtain ⟨hmem, howns⟩ := (hwebsites w).mp hw
      exact ⟨w, hmem, hid, .inl howns⟩
    · rintro ⟨w, hmem, hid, howns | ⟨d, -, -, hd⟩⟩
      · exact ⟨w, (hwebsites w).mpr ⟨hmem, howns⟩, hid⟩
      · exact absurd hd (hdomains d)
  · intro id
    rw [mem_withDomains_domainIds]
    constructor
    · rintro ⟨d, hd, hid, w, hw, hhost⟩
      obtain ⟨hmem, howns⟩ := (hwebsites w).mp hw
      exact ⟨d, hd, hid, .inr ⟨w, hmem, hhost, howns⟩⟩
    · rintro ⟨d, hd, hid, howns | ⟨w, hmem, hhost, howns⟩⟩
      · exact absurd howns (hdomains d)
      · exact ⟨d, hd, hid, w, (hwebsites w).mpr ⟨hmem, howns⟩, hhost⟩

/-- An entry is found by its identifier. -/
theorem find?_id {α : Type} {id : α → Uuid} {as : List α}
    (hnodup : (as.map id).Nodup) {a : α} (ha : a ∈ as) :
    as.find? (fun b => id b == id a) = some a := by
  have hsome : (as.find? fun b => id b == id a).isSome = true := by
    rw [List.find?_isSome]
    exact ⟨a, ha, beq_self_eq_true _⟩
  obtain ⟨b, hb⟩ := Option.isSome_iff_exists.mp hsome
  have hsame : id b = id a := by simpa using List.find?_some hb
  rw [hb, List.inj_on_of_nodup_map hnodup (List.mem_of_find?_eq_some hb) ha
    hsame]

theorem exact_database (hjoined : Joined inventory)
    (hseparate : Separate toLowerCase inventory) {name : String}
    {found : Found}
    (h : inventory.find toLowerCase (.database name) = .ok found) :
    Exact toLowerCase inventory (.database name) found := by
  unfold Inventory.find at h
  dsimp only at h
  cases hfind : inventory.bindings.find? fun binding =>
      toLowerCase binding.databaseName == toLowerCase name with
  | none =>
      rw [hfind] at h
      obtain rfl := Except.ok.inj h
      have hnone : ∀ w, ¬WebsiteOwns toLowerCase inventory (.database name) w := by
        rintro w ⟨b, hb, hname, -⟩
        have hnot := List.find?_eq_none.mp hfind b hb
        rw [beq_iff_eq] at hnot
        exact hnot hname
      show Exact toLowerCase inventory _ (inventory.withDomains [])
      refine exact_withDomains (fun w => ?_) fun d => id
      simp [hnone w]
  | some b =>
      rw [hfind] at h
      obtain rfl := Except.ok.inj h
      have hb := List.mem_of_find?_eq_some hfind
      have hname : toLowerCase b.databaseName = toLowerCase name := by
        simpa using List.find?_some hfind
      obtain ⟨w, hw, hid⟩ := hjoined.bound b hb
      have hfound : inventory.websites.find? (fun website =>
          website.id == b.websiteId) = some w := by
        rw [← hid]
        exact find?_id hjoined.websites hw
      rw [hfound]
      have hexact : Exact toLowerCase inventory (.database name)
          (inventory.withDomains [w]) := by
        refine exact_withDomains (fun w' => ?_) fun d => id
        rw [List.mem_singleton]
        constructor
        · rintro rfl
          exact ⟨hw, b, hb, hname, hid.symm⟩
        · rintro ⟨hw', b', hb', hname', hid'⟩
          -- the bindings of one database are one
          obtain rfl := List.inj_on_of_nodup_map hseparate hb' hb
            (hname'.trans hname.symm)
          exact List.inj_on_of_nodup_map hjoined.websites hw' hw
            (hid'.symm.trans hid.symm)
      exact ⟨hexact.websites, hexact.domains⟩

theorem exact_mailData (hjoined : Joined inventory)
    {scope resourceId mailDomainId : String} {found : Found}
    (h : inventory.find toLowerCase (.mailData scope resourceId mailDomainId)
      = .ok found) :
    Exact toLowerCase inventory (.mailData scope resourceId mailDomainId)
      found := by
  unfold Inventory.find at h
  obtain ⟨m, hm, h⟩ := bind_eq_ok.mp h
  obtain ⟨_, -, h⟩ := bind_eq_ok.mp h
  obtain rfl := Except.ok.inj h
  rw [demand_eq_ok] at hm
  have hmem := List.mem_of_find?_eq_some hm
  have htext : m.id.text = mailDomainId := by simpa using List.find?_some hm
  obtain ⟨d, hd, hid⟩ := hjoined.mailed m hmem
  have hfound : inventory.domains.find? (fun domain =>
      domain.id == m.webDomainId) = some d := by
    rw [← hid]
    exact find?_id hjoined.domains hd
  -- the mail domain is one, and so is the domain that owns it
  have howns : ∀ d', d' ∈ inventory.domains →
      (DomainOwns inventory (.mailData scope resourceId mailDomainId) d'
        ↔ d' = d) := by
    intro d' hd'
    constructor
    · rintro ⟨m', hm', htext', hweb⟩
      have hsame : m' = m := List.inj_on_of_nodup_map hjoined.mailDomains hm'
        hmem (Uuid.ext_text (htext'.trans htext.symm))
      subst hsame
      exact List.inj_on_of_nodup_map hjoined.domains hd' hd
        (hweb.symm.trans hid.symm)
    · rintro rfl
      exact ⟨m, hmem, htext, hid.symm⟩
  rw [hfound]
  constructor
  · intro id
    show id ∈ ((d.websiteId).bind fun id => inventory.websites.find?
      fun website => website.id == id).toList.map Website.id ↔ _
    rw [List.mem_map]
    constructor
    · rintro ⟨w, hw, hwid⟩
      rw [Option.mem_toList, Option.bind_eq_some_iff] at hw
      obtain ⟨host, hhost, hw⟩ := hw
      have hsame : w.id = host := by simpa using List.find?_some hw
      exact ⟨w, List.mem_of_find?_eq_some hw, hwid,
        .inr ⟨d, hd, hsame ▸ hhost, (howns d hd).mpr rfl⟩⟩
    · rintro ⟨w, hw, hwid, hfalse | ⟨d', hd', hhost, hd''⟩⟩
      · cases hfalse
      · obtain rfl := (howns d' hd').mp hd''
        refine ⟨w, ?_, hwid⟩
        rw [Option.mem_toList, hhost, Option.bind_some]
        exact find?_id hjoined.websites hw
  · intro id
    show id ∈ [d.id] ↔ _
    rw [List.mem_singleton]
    constructor
    · rintro rfl
      exact ⟨d, hd, rfl, .inl ((howns d hd).mpr rfl)⟩
    · rintro ⟨d', hd', rfl, hd'' | ⟨w, -, -, hfalse⟩⟩
      · rw [(howns d' hd').mp hd'']
      · cases hfalse

/-- What is found of a resource is what reaches it. -/
theorem exact_find (hjoined : Joined inventory)
    (hseparate : Separate toLowerCase inventory) {kind : Kind} {found : Found}
    (h : inventory.find toLowerCase kind = .ok found) :
    Exact toLowerCase inventory kind found := by
  cases kind with
  | application id =>
      obtain rfl := Except.ok.inj h
      refine exact_withDomains (fun w => ?_) fun d => False.elim
      rw [List.mem_filter, beq_iff_eq]
      rfl
  | database name => exact exact_database hjoined hseparate h
  | dockerStorage id =>
      obtain rfl := Except.ok.inj h
      refine exact_withDomains (fun w => ?_) fun d => False.elim
      rw [List.mem_filter, beq_iff_eq]
      rfl
  | mailData scope resourceId mailDomainId => exact exact_mailData hjoined h

-- ====== the graph

theorem mem_uniqueSorted {values : List String} {text : String} :
    text ∈ uniqueSorted values ↔ text ∈ values := by
  unfold uniqueSorted
  rw [(Text.sort_perm _).mem_iff, List.mem_dedup]

theorem nodup_uniqueSorted (values : List String) :
    (uniqueSorted values).Nodup :=
  (Text.sort_perm _).nodup_iff.mpr (List.nodup_dedup values)

/-- What an impact says of its resource. -/
structure Lists (toLowerCase : String → String) (inventory : Inventory)
    (resource : Resource) (impact : Impact) : Prop where
  identity : impact.resourceIdentity = resource.identity
  type : impact.resourceType = resource.kind.text
  distinct : impact.websiteIds.Nodup ∧ impact.domainIds.Nodup
    ∧ (impact.references.map Reference.key).Nodup
  websites : ∀ text, text ∈ impact.websiteIds ↔ ∃ w ∈ inventory.websites,
    w.id.text = text ∧ WebsiteReaches toLowerCase inventory resource.kind w
  domains : ∀ text, text ∈ impact.domainIds ↔ ∃ d ∈ inventory.domains,
    d.id.text = text ∧ DomainReaches toLowerCase inventory resource.kind d

theorem lists_impact (hjoined : Joined inventory)
    (hseparate : Separate toLowerCase inventory) {resource : Resource}
    {impact : Impact} (h : inventory.impact toLowerCase resource = .ok impact) :
    Lists toLowerCase inventory resource impact := by
  unfold Inventory.impact at h
  obtain ⟨found, hfound, h⟩ := bind_eq_ok.mp h
  obtain ⟨references, hreferences, h⟩ := bind_eq_ok.mp h
  obtain rfl := Except.ok.inj h
  have hexact := exact_find hjoined hseparate hfound
  unfold sortedReferences at hreferences
  dsimp only at hreferences
  split at hreferences
  · rename_i hdistinct
    obtain rfl := Except.ok.inj hreferences
    refine ⟨rfl, rfl, ⟨nodup_uniqueSorted _, nodup_uniqueSorted _, hdistinct⟩,
      fun text => ?_, fun text => ?_⟩
    · rw [mem_uniqueSorted, List.mem_map]
      constructor
      · rintro ⟨id, hid, rfl⟩
        obtain ⟨w, hw, rfl, hreaches⟩ := (hexact.websites id).mp hid
        exact ⟨w, hw, rfl, hreaches⟩
      · rintro ⟨w, hw, rfl, hreaches⟩
        exact ⟨w.id, (hexact.websites w.id).mpr ⟨w, hw, rfl, hreaches⟩, rfl⟩
    · rw [mem_uniqueSorted, List.mem_map]
      constructor
      · rintro ⟨id, hid, rfl⟩
        obtain ⟨d, hd, rfl, hreaches⟩ := (hexact.domains id).mp hid
        exact ⟨d, hd, rfl, hreaches⟩
      · rintro ⟨d, hd, rfl, hreaches⟩
        exact ⟨d.id, (hexact.domains d.id).mpr ⟨d, hd, rfl, hreaches⟩, rfl⟩
  · cases hreferences

theorem names_of_references {records : List BindingRecord}
    {read : List Binding}
    (h : List.Forall₂ (fun a b => databaseBindingReference a = .ok b) records
      read) :
    read.map (fun b => toLowerCase b.databaseName)
      = records.map fun record => toLowerCase record.databaseName := by
  induction h with
  | nil => rfl
  | cons hread _ ih =>
      unfold databaseBindingReference at hread
      obtain ⟨_, -, hread⟩ := bind_eq_ok.mp hread
      obtain ⟨id, -, hread⟩ := bind_eq_ok.mp hread
      obtain ⟨revision, -, hread⟩ := bind_eq_ok.mp hread
      obtain ⟨websiteId, -, hread⟩ := bind_eq_ok.mp hread
      obtain ⟨applicationId, -, hread⟩ := bind_eq_ok.mp hread
      obtain rfl := Except.ok.inj hread
      rw [List.map_cons, List.map_cons, ih]

theorem identities_of_impacts (hjoined : Joined inventory)
    (hseparate : Separate toLowerCase inventory) {impacts : List Impact}
    (h : List.Forall₂ (fun resource impact =>
      inventory.impact toLowerCase resource = .ok impact) resources impacts) :
    impacts.map Impact.resourceIdentity = resources.map Resource.identity := by
  induction h with
  | nil => rfl
  | cons himpact _ ih =>
      rw [List.map_cons, List.map_cons, ih,
        (lists_impact hjoined hseparate himpact).identity]

/-- The graph has one impact for each resource, which lists each website and
each domain that reaches it once and nothing else, and it is the same for
every order of the input. -/
theorem graph_exact (toLowerCase : String → String) (input : Input)
    (graph : Graph)
    (h : createBackupDependencyGraph toLowerCase input = .ok graph)
    (hseparate : ((input.databaseBindings.filter fun binding =>
        binding.serverId == graph.serverId.text).map fun binding =>
      toLowerCase binding.databaseName).Nodup) :
    ∃ inventory, Holds input inventory
      ∧ graph.serverId = inventory.serverId
      ∧ (graph.impacts.map Impact.resourceIdentity).Perm
        (input.resources.map Resource.identity)
      ∧ (∀ impact ∈ graph.impacts, ∃ resource ∈ input.resources,
        Lists toLowerCase inventory resource impact)
      ∧ ∀ input', Shuffled input input' →
        createBackupDependencyGraph toLowerCase input' = .ok graph := by
  have hshuffled : ∀ input', Shuffled input input' →
      createBackupDependencyGraph toLowerCase input' = .ok graph :=
    fun _ hinput => graph_shuffled hinput h
  unfold createBackupDependencyGraph at h
  obtain ⟨inventory, hinventory, h⟩ := bind_eq_ok.mp h
  obtain ⟨impacts, himpacts, h⟩ := bind_eq_ok.mp h
  obtain rfl := Except.ok.inj h
  have hholds := holds_of_readInventory hinventory
  have hjoined := joined_of_readInventory hinventory
  have hall := mapM_eq_ok_iff.mp himpacts
  have hseparate' : Separate toLowerCase inventory := by
    obtain ⟨-, -, -, -, hbindings, -⟩ := readInventory_eq_ok.mp hinventory
    obtain ⟨-, read, hread, -, hsorted⟩ :=
      readSorted_eq_ok.mp (readBindings_eq_ok.mp hbindings).1
    have hnames : read.map (fun b => toLowerCase b.databaseName)
        = (input.databaseBindings.filter fun binding =>
            binding.serverId == inventory.serverId.text).map fun binding =>
              toLowerCase binding.databaseName :=
      names_of_references hread
    unfold Separate
    rw [hsorted, ((Text.collateOn_perm _ read).map _).nodup_iff, hnames]
    exact hseparate
  refine ⟨inventory, hholds, rfl, ?_, ?_, hshuffled⟩
  · rw [← hholds.resources]
    refine List.Perm.trans ?_
      ((Text.collateOn_perm Resource.identity inventory.resources).map _)
    rw [identities_of_impacts hjoined hseparate' hall]
  · intro impact himpact
    obtain ⟨resource, hresource, himpact⟩ := exists_of_forall₂ hall himpact
    rw [(Text.collateOn_perm _ _).mem_iff, hholds.resources] at hresource
    exact ⟨resource, hresource, lists_impact hjoined hseparate' himpact⟩

-- ====== samples

/-- An identifier that ends in a digit. -/
def sampleId (digit : String) : String :=
  "6f2cc8d7-995f-4c20-b9a8-e2ce07b760d" ++ digit

/-- A website with an application, a database and two domains, one of which
has mail. -/
def sampleInput : Input where
  serverId := sampleId "0"
  resources := [
    ⟨"mail:example.com", sampleId "0",
      .mailData "domain" (sampleId "6") (sampleId "6")⟩,
    ⟨"application:shop", sampleId "0", .application (sampleId "2")⟩,
    ⟨"database:shop", sampleId "0", .database "Shop"⟩]
  websites := [⟨sampleId "0", sampleId "1", 3, some (sampleId "2"), none⟩]
  domains := [
    ⟨sampleId "0", sampleId "5", some (sampleId "1"), 2, 2⟩,
    ⟨sampleId "0", sampleId "4", some (sampleId "1"), 1, 0⟩,
    ⟨sampleId "9", sampleId "7", some (sampleId "8"), 1, 0⟩]
  databaseBindings := [
    ⟨sampleId "0", sampleId "3", 1, "shop", sampleId "1", sampleId "2"⟩]
  mailDomains := [⟨"local", some (sampleId "5"), sampleId "6", 4⟩]

/-- `toLowerCase` of an ASCII text. -/
def sampleLower (s : String) : String := String.ofList (Text.lower s.toList)

theorem graph_exact_shop :
    ∃ graph inventory,
      createBackupDependencyGraph sampleLower sampleInput = .ok graph
      ∧ Holds sampleInput inventory
      ∧ ∀ impact ∈ graph.impacts, ∃ resource ∈ sampleInput.resources,
        Lists sampleLower inventory resource impact := by
  have hok : ((createBackupDependencyGraph sampleLower sampleInput).toOption.map
      fun graph => (graph.serverId.text, graph.impacts.map fun impact =>
        (impact.websiteIds.length, impact.domainIds.length)))
      = some (sampleId "0", [(1, 2), (1, 2), (1, 1)]) := by
    decide +kernel
  obtain ⟨graph, hgraph, hshape⟩ := Option.map_eq_some_iff.mp hok
  have hcreated : createBackupDependencyGraph sampleLower sampleInput
      = .ok graph := by
    cases hcreate : createBackupDependencyGraph sampleLower sampleInput with
    | error e =>
        rw [hcreate] at hgraph
        cases hgraph
    | ok g =>
        rw [hcreate] at hgraph
        rw [Option.some.inj hgraph]
  have hserver : graph.serverId.text = sampleId "0" := congrArg Prod.fst hshape
  obtain ⟨inventory, hholds, -, -, hlists, -⟩ := graph_exact sampleLower
    sampleInput graph hcreated (by rw [hserver]; decide +kernel)
  exact ⟨graph, inventory, hcreated, hholds, hlists⟩

example : Text.isHex 'g' = false := by decide +kernel

end Yunpanel.Backup.DependencyGraph
