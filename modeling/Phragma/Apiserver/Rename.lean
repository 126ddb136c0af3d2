import Phragma.Apiserver.Apply

/-!
# Phragma.Apiserver.Rename

References to the named objects of a policy (`internal/apiserver/policy.go`): collecting them,
renaming an object and rewriting what refers to it.

The three traversals follow the source section by section: rules, zones, host-input rules,
translations and IDS exceptions, each with the fields that hold names of the kind in question.
-/

namespace Phragma.Apiserver

open Go Policy

/-- `PolicyObjectKind`: the kinds of objects that rules refer to by name. -/
inductive PolicyObjectKind
  | unspecified
  | zone
  | address
  | service
  | application
  | securityProfile
  | qosProfile
  | zoneProtectionProfile
  | unrecognized (n : Int)
  deriving DecidableEq, Repr

/-- `PolicyObjectReference`: a field of an item of the policy that holds an object's name. -/
structure PolicyObjectReference where
  objectName : String
  area : String
  item : String
  index : Nat
  field : String
  detail : String
  itemId : String
  deriving DecidableEq, Repr

/-! ### Collecting references

Where an object is referred to, area by area. The list is shown and written to the audit log; the
rename does not depend on it. -/

/-- `referenceDetail`: what a reference means, in words. -/
def referenceDetail (area field itemDescription : String) : String :=
  if area = "destination NAT" ∧ field = "translated address" then
    "Traffic is translated to this address."
  else if area = "source NAT" ∧ field = "translated address" then
    "Egress traffic is translated to this address."
  else if field = "from zone" ∨ field = "to zone" then "Trust boundary match."
  else if field = "application" then "Phragma App-ID policy match."
  else if field = "security profile" then "Layered inspection profile attached to this rule."
  else if field = "QoS profile" then "Traffic shaping intent attached to this rule."
  else if field = "zone-protection profile" then "DoS protection intent attached to this zone."
  else if field = "service" then "L4 protocol or port match."
  else itemDescription

/-- An item of the policy that may refer to objects; `index` counts the items of its area. -/
structure ReferringItem where
  area : String
  item : String
  itemId : String
  index : Nat
  description : String

/-- The reference `objectReferenceBuilder.add` makes; the index is a `uint32`. -/
def ReferringItem.reference (r : ReferringItem) (field objectName : String) :
    PolicyObjectReference where
  objectName
  area := r.area
  item := if r.item = "" then "#" ++ decimal (r.index + 1) else r.item
  index := r.index % 2 ^ 32
  field
  detail := referenceDetail r.area field r.description
  itemId := r.itemId

/-- `objectReferenceBuilder.add`: what it appends. -/
def ReferringItem.add (r : ReferringItem) (name field objectName : String) :
    List PolicyObjectReference :=
  let objectName := trimSpace objectName
  if objectName = "" ∨ objectName = "any" then []
  else if name ≠ "" ∧ objectName ≠ name then []
  else [r.reference field objectName]

/-- `objectReferenceBuilder.addMany`: the references in one field. -/
def ReferringItem.addMany (r : ReferringItem) (name field : String) (objectNames : List String) :
    List PolicyObjectReference :=
  objectNames.flatMap (r.add name field)

/-- A rule as a referring item. -/
def ruleItem (rule : Rule) (index : Nat) : ReferringItem :=
  ⟨"security rule", rule.name, trimSpace rule.id, index, rule.description⟩

/-- A zone as a referring item. -/
def zoneItem (zone : Zone) (index : Nat) : ReferringItem :=
  ⟨"zone", zone.name, "", index, zone.description⟩

/-- A host-input rule as a referring item. -/
def hostInputItem (rule : HostInputRule) (index : Nat) : ReferringItem :=
  ⟨"host-input rule", rule.name, trimSpace rule.id, index, rule.description⟩

/-- A source translation as a referring item. -/
def sourceNatItem (rule : SourceNat) (index : Nat) : ReferringItem :=
  ⟨"source NAT", rule.name, trimSpace rule.id, index, ""⟩

/-- A destination translation as a referring item. -/
def destinationNatItem (rule : DestinationNat) (index : Nat) : ReferringItem :=
  ⟨"destination NAT", rule.name, trimSpace rule.id, index, ""⟩

/-- An IDS exception as a referring item. -/
def exceptionItem (exception : IdsException) (index : Nat) : ReferringItem :=
  ⟨"IDS exception", exception.name, "", index, exception.description⟩

/-- `GetHostInput().GetRules()`: the host-input rules, none for a missing section. -/
def hostInputRules (p : Phragma.Policy) : List HostInputRule := (p.hostInput.getD {}).rules

section

variable (kind : PolicyObjectKind) (name : String)

/-- What `collectObjectReferences` finds in a rule. -/
def ruleReferences (rule : Rule) (i : Nat) : List PolicyObjectReference :=
  let r := ruleItem rule i
  match kind with
  | .zone => r.addMany name "from zone" rule.fromZones ++ r.addMany name "to zone" rule.toZones
  | .address =>
      r.addMany name "source address" rule.sourceAddresses ++
        r.addMany name "destination address" rule.destinationAddresses
  | .service => r.addMany name "service" rule.services
  | .application => r.addMany name "application" rule.applications
  | .securityProfile => r.addMany name "security profile" rule.securityProfiles
  | .qosProfile => r.add name "QoS profile" rule.qosProfile
  | _ => []

/-- What it finds in a zone. -/
def zoneReferences (zone : Zone) (i : Nat) : List PolicyObjectReference :=
  match kind with
  | .zoneProtectionProfile =>
      (zoneItem zone i).add name "zone-protection profile" zone.zoneProtectionProfile
  | _ => []

/-- What it finds in a host-input rule. -/
def hostInputReferences (rule : HostInputRule) (i : Nat) : List PolicyObjectReference :=
  let r := hostInputItem rule i
  match kind with
  | .zone => r.addMany name "from zone" rule.fromZones
  | .address => r.addMany name "source address" rule.sourceAddresses
  | .service => r.addMany name "service" rule.services
  | _ => []

/-- What it finds in a source translation. -/
def sourceNatReferences (rule : SourceNat) (i : Nat) : List PolicyObjectReference :=
  let r := sourceNatItem rule i
  match kind with
  | .zone => r.add name "to zone" rule.toZone
  | .address =>
      r.add name "source address" rule.sourceAddress ++
        r.add name "translated address" rule.translatedAddress
  | _ => []

/-- What it finds in a destination translation. -/
def destinationNatReferences (rule : DestinationNat) (i : Nat) : List PolicyObjectReference :=
  let r := destinationNatItem rule i
  match kind with
  | .zone => r.add name "from zone" rule.fromZone
  | .address =>
      r.add name "destination address" rule.destinationAddress ++
        r.add name "translated address" rule.translatedAddress
  | .service => r.add name "service" rule.service
  | _ => []

/-- What it finds in an IDS exception. -/
def exceptionReferences (exception : IdsException) (i : Nat) : List PolicyObjectReference :=
  let r := exceptionItem exception i
  match kind with
  | .address =>
      r.add name "source address" exception.sourceAddress ++
        r.add name "destination address" exception.destinationAddress
  | _ => []

/-- The references of the items of one area. -/
def areaReferences {α : Type} (references : α → Nat → List PolicyObjectReference)
    (items : List α) : List PolicyObjectReference :=
  items.zipIdx.flatMap fun x => references x.1 x.2

/-- `collectObjectReferences`: all references to one object. -/
def collectObjectReferences (p : Phragma.Policy) : List PolicyObjectReference :=
  areaReferences (ruleReferences kind name) p.rules ++
    areaReferences (zoneReferences kind name) p.zones ++
    areaReferences (hostInputReferences kind name) (hostInputRules p) ++
    areaReferences (sourceNatReferences kind name) (getNat p).source ++
    areaReferences (destinationNatReferences kind name) (getNat p).destination ++
    areaReferences (exceptionReferences kind name) (getIds p).exceptions

end

/-! ### Renaming the definition

The name is looked up and the new one looked for in one pass over the objects of the kind. -/

/-- The loop of `renameNamedPolicyObject` that looks for the two names: whether the old one was
found. -/
def findRenamed {α : Type} (label : String) (getName : α → String) (oldName newName : String) :
    Bool → List α → Except Status Bool
  | found, [] => .ok found
  | found, item :: items =>
      if getName item = newName then
        .error ⟨.alreadyExists, label ++ " " ++ quote newName ++ " already exists"⟩
      else findRenamed label getName oldName newName (found || getName item = oldName) items

/-- The loop of `renameNamedPolicyObject` that renames the first item with the old name. -/
def renameFirst {α : Type} (getName : α → String) (setName : α → String → α)
    (oldName newName : String) : List α → List α
  | [] => []
  | item :: items =>
      if getName item = oldName then setName item newName :: items
      else item :: renameFirst getName setName oldName newName items

/-- `renameNamedPolicyObject`: the objects of one kind with one of them renamed, unless the new name
is taken. -/
def renameNamedPolicyObject {α : Type} (label : String) (items : List α) (getName : α → String)
    (setName : α → String → α) (oldName newName : String) : Except Status (List α) :=
  match findRenamed label getName oldName newName false items with
  | .error status => .error status
  | .ok false =>
      .error ⟨.notFound, label ++ " " ++ quote oldName ++ " not found in candidate"⟩
  | .ok true => .ok (renameFirst getName setName oldName newName items)

/-- `renamePolicyObjectDefinition`: the same in a policy. -/
def renamePolicyObjectDefinition (p : Phragma.Policy) (kind : PolicyObjectKind)
    (oldName newName : String) : Except Status Phragma.Policy :=
  match kind with
  | .zone =>
      (renameNamedPolicyObject "zone" p.zones Zone.name (fun z name => { z with name }) oldName
        newName).map fun zones => { p with zones }
  | .address =>
      (renameNamedPolicyObject "address" p.addresses Address.name (fun a name => { a with name })
        oldName newName).map fun addresses => { p with addresses }
  | .service =>
      (renameNamedPolicyObject "service" p.services Service.name (fun s name => { s with name })
        oldName newName).map fun services => { p with services }
  | .application =>
      (renameNamedPolicyObject "application" p.applications Application.name
        (fun a name => { a with name }) oldName newName).map fun applications =>
          { p with applications }
  | .securityProfile =>
      (renameNamedPolicyObject "security profile" p.securityProfiles SecurityProfile.name
        (fun sp name => { sp with name }) oldName newName).map fun securityProfiles =>
          { p with securityProfiles }
  | .qosProfile =>
      (renameNamedPolicyObject "QoS profile" p.qosProfiles QosProfile.name
        (fun qp name => { qp with name }) oldName newName).map fun qosProfiles =>
          { p with qosProfiles }
  | .zoneProtectionProfile =>
      (renameNamedPolicyObject "zone-protection profile" p.zoneProtectionProfiles
        ZoneProtectionProfile.name (fun zp name => { zp with name }) oldName newName).map
          fun zoneProtectionProfiles => { p with zoneProtectionProfiles }
  | _ => .error ⟨.invalidArgument, "kind is invalid"⟩

/-! ### Rewriting references -/

section

variable (kind : PolicyObjectKind) (oldName newName : String)

/-- `replaceStringRef`: a reference with the new name. -/
def replaceStringRef (ref : String) : String := if ref = oldName then newName else ref

/-- `replaceStringRefs`: a list of them. -/
def replaceStringRefs (refs : List String) : List String :=
  refs.map (replaceStringRef oldName newName)

/-- What `rewritePolicyObjectReferences` does to a rule. -/
def rewriteRule (rule : Rule) : Rule :=
  match kind with
  | .zone =>
      { rule with
        fromZones := replaceStringRefs oldName newName rule.fromZones
        toZones := replaceStringRefs oldName newName rule.toZones }
  | .address =>
      { rule with
        sourceAddresses := replaceStringRefs oldName newName rule.sourceAddresses
        destinationAddresses := replaceStringRefs oldName newName rule.destinationAddresses }
  | .service => { rule with services := replaceStringRefs oldName newName rule.services }
  | .application =>
      { rule with applications := replaceStringRefs oldName newName rule.applications }
  | .securityProfile =>
      { rule with securityProfiles := replaceStringRefs oldName newName rule.securityProfiles }
  | .qosProfile => { rule with qosProfile := replaceStringRef oldName newName rule.qosProfile }
  | _ => rule

/-- What it does to a zone. -/
def rewriteZone (zone : Zone) : Zone :=
  match kind with
  | .zoneProtectionProfile =>
      { zone with
        zoneProtectionProfile := replaceStringRef oldName newName zone.zoneProtectionProfile }
  | _ => zone

/-- What it does to a host-input rule. -/
def rewriteHostInputRule (rule : HostInputRule) : HostInputRule :=
  match kind with
  | .zone => { rule with fromZones := replaceStringRefs oldName newName rule.fromZones }
  | .address =>
      { rule with sourceAddresses := replaceStringRefs oldName newName rule.sourceAddresses }
  | .service => { rule with services := replaceStringRefs oldName newName rule.services }
  | _ => rule

/-- What it does to a source translation. -/
def rewriteSourceNat (rule : SourceNat) : SourceNat :=
  match kind with
  | .zone => { rule with toZone := replaceStringRef oldName newName rule.toZone }
  | .address =>
      { rule with
        sourceAddress := replaceStringRef oldName newName rule.sourceAddress
        translatedAddress := replaceStringRef oldName newName rule.translatedAddress }
  | _ => rule

/-- What it does to a destination translation. -/
def rewriteDestinationNat (rule : DestinationNat) : DestinationNat :=
  match kind with
  | .zone => { rule with fromZone := replaceStringRef oldName newName rule.fromZone }
  | .address =>
      { rule with
        destinationAddress := replaceStringRef oldName newName rule.destinationAddress
        translatedAddress := replaceStringRef oldName newName rule.translatedAddress }
  | .service => { rule with service := replaceStringRef oldName newName rule.service }
  | _ => rule

/-- What it does to an IDS exception. -/
def rewriteException (exception : IdsException) : IdsException :=
  match kind with
  | .address =>
      { exception with
        sourceAddress := replaceStringRef oldName newName exception.sourceAddress
        destinationAddress := replaceStringRef oldName newName exception.destinationAddress }
  | _ => exception

/-- `rewritePolicyObjectReferences`: a policy with the references to one object rewritten. -/
def rewritePolicyObjectReferences (p : Phragma.Policy) : Phragma.Policy :=
  { p with
    rules := p.rules.map (rewriteRule kind oldName newName)
    zones := p.zones.map (rewriteZone kind oldName newName)
    hostInput := p.hostInput.map fun hostInput =>
      { hostInput with rules := hostInput.rules.map (rewriteHostInputRule kind oldName newName) }
    nat := p.nat.map fun nat =>
      { source := nat.source.map (rewriteSourceNat kind oldName newName)
        destination := nat.destination.map (rewriteDestinationNat kind oldName newName) }
    ids := p.ids.map fun ids =>
      { ids with exceptions := ids.exceptions.map (rewriteException kind oldName newName) } }

end

/-! ### The rename

Definition first, then references. The handler around it is in `Phragma.Apiserver.CandidateNat`. -/

/-- `RenamePolicyObjectRequest`: which object, and its new name. -/
structure RenameRequest where
  kind : PolicyObjectKind
  oldName : String
  newName : String
  comment : String

/-- The names of a rename that passed the checks on the request alone. -/
structure RenameNames where
  oldName : String
  newName : String

/-- The checks of `RenamePolicyObject` before it looks at the candidate. -/
def renameNames (req : RenameRequest) : Except Status RenameNames :=
  let oldName := trimSpace req.oldName
  let newName := trimSpace req.newName
  if req.kind = .unspecified then .error ⟨.invalidArgument, "kind is required"⟩
  else if oldName = "" then .error ⟨.invalidArgument, "old_name is required"⟩
  else if newName = "" then .error ⟨.invalidArgument, "new_name is required"⟩
  else if oldName = Any ∨ newName = Any then
    .error ⟨.invalidArgument, quote Any ++ " is reserved and cannot be renamed"⟩
  else if oldName = newName then
    .error ⟨.invalidArgument, "old_name and new_name must be different"⟩
  else .ok ⟨oldName, newName⟩

/-- The renamed candidate, with the references found before. -/
structure Renamed where
  next : Phragma.Policy
  rewritten : List PolicyObjectReference

/-- What `RenamePolicyObject` does with the candidate, up to storing it. -/
def renameCandidate (kind : PolicyObjectKind) (names : RenameNames) (candidate : Phragma.Policy) :
    Except Status Renamed :=
  match renamePolicyObjectDefinition candidate kind names.oldName names.newName with
  | .error status => .error status
  | .ok renamed =>
      let next := rewritePolicyObjectReferences kind names.oldName names.newName renamed
      if Validate next ≠ [] then
        .error ⟨.invalidArgument, "renamed candidate is invalid: " ++ join (Validate next) "; "⟩
      else .ok ⟨next, collectObjectReferences kind names.oldName candidate⟩

/-- `renamedObjectReferences`: the collected references under the new name. -/
def renamedObjectReferences (refs : List PolicyObjectReference) (newName : String) :
    List PolicyObjectReference :=
  refs.map fun ref => { ref with objectName := newName }

/-- `RenamePolicyObjectResponse`; the status of the candidate is left out. -/
structure RenameResponse where
  kind : PolicyObjectKind
  oldName : String
  newName : String
  rewrittenReferences : List PolicyObjectReference
  deriving DecidableEq

/-- `policyObjectKindAuditLabel`: a kind in words. -/
def policyObjectKindAuditLabel : PolicyObjectKind → String
  | .zone => "zone"
  | .address => "address"
  | .service => "service"
  | .application => "application"
  | .securityProfile => "security profile"
  | .qosProfile => "QoS profile"
  | .zoneProtectionProfile => "zone-protection profile"
  | _ => "policy object"

/-- The audit detail of a rename. -/
def renameDetail (req : RenameRequest) (names : RenameNames) (references : Nat) : String :=
  policyObjectKindAuditLabel req.kind ++ " " ++ quote names.oldName ++ " renamed to " ++
    quote names.newName ++ "; " ++ decimal references ++ " references rewritten" ++
    (if trimSpace req.comment ≠ "" then ": " ++ trimSpace req.comment else "")

end Phragma.Apiserver
