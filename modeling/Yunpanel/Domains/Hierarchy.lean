/-
Which domain is below which.

A subdomain names its parent by id. `validateDomainParent` is what a parent
has to satisfy, `validateDomainHierarchy` asks it of a whole store, and
`descendantsOf` walks the other way. The two walks are loops that visit
each id at most once; they take a step count here, which one more than the
number of domains always covers (`checkAncestors_fuel`, `descend_fuel`).
-/
import Yunpanel.Domains.Domain

namespace Yunpanel.Domains

/-- What the registry calls of its surroundings, names apart. -/
structure Platform extends Net where
  /-- The digest of a value's JSON text, in hexadecimal. -/
  sha256 : Json → String
  /-- `left.localeCompare(right) <= 0` -/
  localeLE : String → String → Bool

-- ====== ancestors

def domainParentCycle : Failure :=
  refuse "domain_parent_cycle" "Domain hierarchy cannot contain a cycle" 409

/-- `byId.get(id)`: of two entries with one id the later counts. -/
def byId (domains : List Domain) (id : String) : Option Domain :=
  domains.reverse.find? fun domain => domain.id == id

/-- The loop of `validateDomainParent`, from the parent upwards. -/
def checkAncestors (domains : List Domain) (serverId : String) :
    Nat → List String → Domain → Except Failure Unit
  | 0, _, _ => .error domainParentCycle
  | fuel + 1, visited, ancestor =>
      if ancestor.id ∈ visited then .error domainParentCycle
      else if ancestor.serverId ≠ serverId then
        .error (refuse "parent_server_mismatch"
          "Parent and subdomain must belong to the same server" 409)
      else
        match ancestor.parentDomainId with
        | none => .ok ()
        | some nextId =>
            match byId domains nextId with
            | none =>
                .error (refuse "parent_domain_not_found"
                  "An ancestor domain does not exist" 409)
            | some next =>
                checkAncestors domains serverId fuel
                  (ancestor.id :: visited) next

/-- ``name.endsWith(`.${parent}`)``: the leading dot keeps
`badexample.com` from being below `example.com`. -/
def isBelow (name parent : String) : Bool :=
  ('.' :: parent.toList).isSuffixOf name.toList

/-- The part of a domain its place in the hierarchy depends on. -/
structure Place where
  id : String
  serverId : String
  primaryDomain : String
  parentDomainId : Option String

def Domain.place (domain : Domain) : Place :=
  { id := domain.id
    serverId := domain.serverId
    primaryDomain := domain.primaryDomain
    parentDomainId := domain.parentDomainId }

def validateDomainParent (domains : List Domain) (place : Place) :
    Except Failure Unit :=
  match place.parentDomainId with
  | none => .ok ()
  | some parentId =>
      if parentId = "" ∨ 128 < Text.length parentId then
        .error (refuse "invalid_parent_domain"
          "Parent domain ID must be a non-empty string or null")
      else
        match byId domains parentId with
        | none =>
            .error (refuse "parent_domain_not_found"
              "Parent domain does not exist" 404)
        | some parent => do
            checkAncestors domains place.serverId (domains.length + 1)
              [place.id] parent
            if !isBelow place.primaryDomain parent.primaryDomain then
              throw (refuse "invalid_subdomain_parent"
                "Subdomain must be below the selected primary domain")

/-- The first loop of `validateDomainHierarchy`. -/
def checkIds (ids : List String) : List Domain → Except Failure Unit
  | [] => .ok ()
  | domain :: rest =>
      if domain.id = "" ∨ domain.id ∈ ids then
        .error (refuse "invalid_domain_hierarchy"
          "Domain IDs must be present and unique" 409)
      else checkIds (domain.id :: ids) rest

/-- The second one. -/
def checkParents (domains : List Domain) :
    List Domain → Except Failure Unit
  | [] => .ok ()
  | domain :: rest => do
      validateDomainParent domains domain.place
      checkParents domains rest

def validateDomainHierarchy (domains : List Domain) :
    Except Failure Unit := do
  checkIds [] domains
  checkParents domains domains

-- ====== descendants

/-- One pass over the domains: the children of a parent that have not been
visited. -/
def newChildren (parentId : String) (visited : List String) :
    List Domain → List Domain
  | [] => []
  | domain :: rest =>
      if domain.parentDomainId ≠ some parentId ∨ domain.id ∈ visited then
        newChildren parentId visited rest
      else domain :: newChildren parentId (domain.id :: visited) rest

/-- The loop of `descendantsOf` over what is pending. -/
def descend (domains : List Domain) :
    Nat → List String → List String → List Domain
  | 0, _, _ => []
  | _ + 1, [], _ => []
  | fuel + 1, parentId :: pending, visited =>
      let found := newChildren parentId visited domains
      let ids := found.map Domain.id
      found ++ descend domains fuel (pending ++ ids) (ids.reverse ++ visited)

/-- What a caller is told of a descendant. -/
structure Descendant where
  id : String
  primaryDomain : String
  parentDomainId : Option String
  deriving DecidableEq, Repr

def Domain.asDescendant (domain : Domain) : Descendant :=
  { id := domain.id
    primaryDomain := domain.primaryDomain
    parentDomainId := domain.parentDomainId }

def descendantsOf (platform : Platform) (domains : List Domain)
    (domainId : String) : List Descendant :=
  ((descend domains (domains.length + 1) [domainId] [domainId]).map
    Domain.asDescendant).mergeSort
      fun left right => platform.localeLE left.id right.id

-- ====== snapshots

def hierarchyEntry (domain : Domain) : Json :=
  .obj [("id", .str domain.id), ("serverId", .str domain.serverId),
    ("websiteId", Target.textJson domain.websiteId),
    ("primaryDomain", .str domain.primaryDomain),
    ("aliases", .arr
      ((domain.aliases.mergeSort fun a b => decide (a ≤ b)).map .str)),
    ("parentDomainId", Target.textJson domain.parentDomainId),
    ("certificateId", Target.textJson domain.certificateId),
    ("desiredRevision", .num domain.desiredRevision)]

def hierarchySnapshot (platform : Platform) (domains : List Domain) :
    Json :=
  .arr ((domains.mergeSort fun left right =>
    platform.localeLE left.id right.id).map hierarchyEntry)

end Yunpanel.Domains
