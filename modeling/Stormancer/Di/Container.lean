import Mathlib.Data.UInt
import Stormancer.Lib.Slots

/-!
# Registrations and scopes of the dependency injection

`ContainerBuilder`, `RegistrationHandle`, and the parts of `DependencyScopeImpl` that do not run
factories. A scope is an index into the list of all scopes. `_parent` is followed to its end when
a scope is begun: `ancestors` lists the enclosing scopes, nearest first. The maps
`_localInstances` of all scopes are one table, keyed by scope and registration id.

A type is its hash, an instance is the object that a `shared_ptr` points to, and a factory is
the identity of a `std::function`. The counter of the registrations is unbounded.

A scope is destroyed between two commands, and scopes are not moved. Those below a destroyed scope
stay, and find out when they look for their parent. What a destroyed scope had stored is left in
the table: nothing leads to it.
-/

namespace Stormancer.Di

/-! ## Registrations -/

abbrev TypeHash := UInt64

abbrev RegistrationId := Nat

/-- The object that a `shared_ptr` points to. -/
abbrev Instance := Nat

/-- The identity of a factory. -/
abbrev Factory := Nat

inductive DependencyLifetime
  | instancePerRequest
  | instancePerScope
  | instancePerMatchingScope
  | singleInstance
deriving DecidableEq

/-- What is thrown: a `DependencyResolutionException`, a `std::invalid_argument`, or what a
factory throws of its own. -/
inductive Error
  | dependencyResolution (message : String)
  | invalidArgument (message : String)
  | factory
deriving DecidableEq

def Error.notFound : Error := .dependencyResolution "Dependency not found"

def Error.noMatchingScope (tag : String) : Error := .dependencyResolution
  ("No matching scope found for dependency registered as InstancePerMatchingScope with tag "
    ++ tag)

def Error.parentDeleted : Error := .dependencyResolution "Parent scope was deleted"

def Error.invalidScope : Error := .dependencyResolution
  "This DependencyScope is invalid because it was default-constructed."

structure RegistrationData where
  factory : Factory
  id : RegistrationId
  typesRegisteredAs : List TypeHash
  lifetime : DependencyLifetime
  scopeTagToMatch : String
  actualType : TypeHash
deriving DecidableEq

/-- The calls on a `RegistrationHandle`. `asSelf` is `as` of the type of the handle. -/
inductive HandleCall
  | as (typeHash : TypeHash)
  | instancePerRequest
  | instancePerScope
  | singleInstance
  | instancePerMatchingScope (scopeTag : String)
deriving DecidableEq

namespace RegistrationData

def as (d : RegistrationData) (typeHash : TypeHash) : RegistrationData :=
  if typeHash ∈ d.typesRegisteredAs then d
  else { d with typesRegisteredAs := d.typesRegisteredAs ++ [typeHash] }

def apply (d : RegistrationData) : HandleCall → Except Error RegistrationData
  | .as typeHash => .ok (d.as typeHash)
  | .instancePerRequest => .ok { d with lifetime := .instancePerRequest }
  | .instancePerScope => .ok { d with lifetime := .instancePerScope }
  | .singleInstance => .ok { d with lifetime := .singleInstance }
  | .instancePerMatchingScope scopeTag =>
    if scopeTag = "" then .error (.invalidArgument "scopeTag must not be empty")
    else .ok { d with lifetime := .instancePerMatchingScope, scopeTagToMatch := scopeTag }

def applyAll (d : RegistrationData) : List HandleCall → Except Error RegistrationData
  | [] => .ok d
  | call :: calls =>
    match d.apply call with
    | .error e => .error e
    | .ok d => d.applyAll calls

end RegistrationData

structure ContainerBuilder where
  registrationCounter : RegistrationId
  registrations : List RegistrationData
deriving DecidableEq

/-- A call of `registerDependency` and the calls on the handle that it returns. The overload
that takes an instance makes a factory of it and calls `singleInstance` first. -/
structure Registering where
  actualType : TypeHash
  factory : Factory
  calls : List HandleCall
deriving DecidableEq

namespace ContainerBuilder

def registerDependency (b : ContainerBuilder) (x : Registering) :
    Except Error ContainerBuilder :=
  let data : RegistrationData :=
    { factory := x.factory
      id := b.registrationCounter
      typesRegisteredAs := []
      lifetime := .instancePerRequest
      scopeTagToMatch := ""
      actualType := x.actualType }
  match data.applyAll x.calls with
  | .error e => .error e
  | .ok data => .ok
      { registrationCounter := b.registrationCounter + 1
        registrations := b.registrations ++ [data] }

/-- The function that fills the builder. -/
def registerAll (b : ContainerBuilder) : List Registering → Except Error ContainerBuilder
  | [] => .ok b
  | x :: xs =>
    match b.registerDependency x with
    | .error e => .error e
    | .ok b => b.registerAll xs

end ContainerBuilder

/-! ## Scopes -/

abbrev ScopeId := Nat

structure RegistrationInternal where
  lifetime : DependencyLifetime
  factory : Factory
  tag : String
  id : RegistrationId
deriving DecidableEq

def RegistrationInternal.ofData (d : RegistrationData) : RegistrationInternal where
  lifetime := d.lifetime
  factory := d.factory
  tag := d.scopeTagToMatch
  id := d.id

/-- The pairs that `buildRegistrations` puts into its map, in order. -/
def buildRegistrations (b : ContainerBuilder) : List (TypeHash × RegistrationInternal) :=
  b.registrations.flatMap fun d =>
    let types := if d.typesRegisteredAs.isEmpty then [d.actualType] else d.typesRegisteredAs
    types.map fun t => (t, .ofData d)

structure DependencyScopeImpl where
  registrations : List (TypeHash × RegistrationInternal)
  tag : String
  ancestors : List ScopeId
  baseId : RegistrationId
deriving DecidableEq

/-- `_registrations.find(typeHash)`: `[]` if there is no entry. -/
def DependencyScopeImpl.localRegs (impl : DependencyScopeImpl) (typeHash : TypeHash) :
    List RegistrationInternal :=
  (impl.registrations.filter fun p => p.1 == typeHash).map (·.2)

/-- The constructor of a scope under the enclosing scopes. -/
def DependencyScopeImpl.create (b : ContainerBuilder) (tag : String)
    (ancestors : List ScopeId) : DependencyScopeImpl where
  registrations := buildRegistrations b
  tag := tag
  ancestors := ancestors
  baseId := b.registrationCounter

/-- All scopes, in the order in which they were begun. -/
abbrev Scopes := List DependencyScopeImpl

namespace Scopes

/-- A scope and the scopes around it, nearest first. -/
def chain (scopes : Scopes) (scope : ScopeId) : List ScopeId :=
  match scopes[scope]? with
  | none => []
  | some impl => scope :: impl.ancestors

/-- What `_parent` leads to, for a scope that is begun below `parent`. -/
def ancestorsOf (scopes : Scopes) (parent : Option ScopeId) : List ScopeId :=
  match parent with
  | none => []
  | some p => scopes.chain p

def localRegs (scopes : Scopes) (scope : ScopeId) (typeHash : TypeHash) :
    List RegistrationInternal :=
  match scopes[scope]? with
  | none => []
  | some impl => impl.localRegs typeHash

def hasTag (scopes : Scopes) (tag : String) (scope : ScopeId) : Bool :=
  match scopes[scope]? with
  | none => false
  | some impl => tag == impl.tag

def findMatchingScope (scopes : Scopes) (scope : ScopeId) (tag : String) : Option ScopeId :=
  (scopes.chain scope).find? (scopes.hasTag tag)

/-- The counter from which the builder of a child scope goes on. -/
def baseId (scopes : Scopes) (parent : Option ScopeId) : RegistrationId :=
  match parent.bind fun p => scopes[p]? with
  | none => 0
  | some impl => impl.baseId

/-- The scope in which the instance of a registration belongs when it is requested from
`requesting`. -/
def ownerOf (scopes : Scopes) (registering : ScopeId) (reg : RegistrationInternal)
    (requesting : ScopeId) : Option ScopeId :=
  match reg.lifetime with
  | .instancePerRequest => some requesting
  | .instancePerScope => some requesting
  | .instancePerMatchingScope => scopes.findMatchingScope requesting reg.tag
  | .singleInstance => some registering

end Scopes

/-! ## The state -/

/-- Where an instance is stored: in the map of a scope, under a registration id. -/
abbrev Slot := ScopeId × RegistrationId

/-- A registration, by the scope that it was made in and its id. -/
structure RegistrationKey where
  scope : ScopeId
  id : RegistrationId
deriving DecidableEq

/-- A factory call that returned: for which registration, in which scope, and what. -/
structure Completion where
  registration : RegistrationKey
  scope : ScopeId
  object : Option Instance
deriving DecidableEq

/-- An instance that was found or made for a request. -/
structure Resolution where
  typeHash : TypeHash
  registration : RegistrationKey
  lifetime : DependencyLifetime
  requesting : ScopeId
  owner : ScopeId
  object : Instance
deriving DecidableEq

/-- What a scope returned or threw when it was asked for a type. -/
inductive Answer
  | resolve (requesting : ScopeId) (typeHash : TypeHash)
      (result : Except Error (Option Instance))
  | resolveAll (requesting : ScopeId) (typeHash : TypeHash)
      (result : Except Error (List (Option Instance)))
deriving DecidableEq

def Answer.requesting : Answer → ScopeId
  | .resolve requesting _ _ => requesting
  | .resolveAll requesting _ _ => requesting

/-- The scopes, what they store, and a record of what happened. -/
structure Container where
  scopes : Scopes
  localInstances : Slots.Table Slot (Option Instance)
  /-- The number of factory calls so far. -/
  calls : Nat
  /-- The slots whose factory was called again before its first call returned. -/
  reentered : List Slot
  /-- The number of factory calls that threw. -/
  thrown : Nat
  destroyed : List ScopeId
  /-- The scopes that looked for their parent after it was destroyed. -/
  orphaned : List ScopeId
  completions : List Completion
  resolutions : List Resolution
  answers : List Answer

namespace Container

def init : Container where
  scopes := []
  localInstances := ∅
  calls := 0
  reentered := []
  thrown := 0
  destroyed := []
  orphaned := []
  completions := []
  resolutions := []
  answers := []

def addScope (s : Container) (impl : DependencyScopeImpl) : Container :=
  { s with scopes := s.scopes ++ [impl] }

def countCall (s : Container) : Container := { s with calls := s.calls + 1 }

/-- The factory of a slot is called, while those of `running` have not returned. -/
def enter (s : Container) (running : List Slot) (slot : Slot) : Container :=
  if slot ∈ running then { s with reentered := s.reentered ++ [slot] } else s

/-- A factory call has come to its end. -/
def countThrow (result : Except Error (Option Instance)) (s : Container) : Container :=
  match result with
  | .error _ => { s with thrown := s.thrown + 1 }
  | .ok _ => s

def destroy (s : Container) (scope : ScopeId) : Container :=
  { s with destroyed := s.destroyed ++ [scope] }

def addOrphan (s : Container) (scope : ScopeId) : Container :=
  { s with orphaned := s.orphaned ++ [scope] }

def addCompletion (s : Container) (c : Completion) : Container :=
  { s with completions := s.completions ++ [c] }

def addResolution (s : Container) (x : Resolution) : Container :=
  { s with resolutions := s.resolutions ++ [x] }

def addAnswer (s : Container) (x : Answer) : Container :=
  { s with answers := s.answers ++ [x] }

/-- `instancesMap[reg.id] = instance`. -/
def store (s : Container) (slot : Slot) (object : Option Instance) : Container :=
  { s with localInstances := s.localInstances.insert slot object }

/-- The instance that is stored in the slot, if any. -/
def stored (s : Container) (slot : Slot) : Option (Option Instance) :=
  s.localInstances.lookup slot

end Container

end Stormancer.Di
