import Stormancer.Di.Container
import Stormancer.Lib.Prog

/-!
# Resolution of dependencies

`DependencyScopeImpl::resolveInternal` and what it calls, and the operations of a
`DependencyScope`. They take what a factory does as a parameter. `callFactory` ties the knot: a
factory call makes requests of its own, to any scopes, and may begin scopes; then it throws or
returns an object, or null. What each factory call does is given by the number of the call, so
it may depend on anything that happened before. The depth bounds how far calls are nested; a
request that goes deeper does not return.

`running` lists the slots whose factories have been called and have not returned.
-/

namespace Stormancer.Di

/-- A program of the container. -/
abbrev M := Prog Container Error

/-- What a factory does in a scope, below the slots whose factories have not returned. -/
abbrev FactoryProg := List Slot → Factory → ScopeId → M (Option Instance)

/-! ## Requests to scopes -/

inductive Command
  | build (registrations : List Registering)
  | beginLifetimeScope (parent : ScopeId) (tag : String) (registrations : List Registering)
  | resolve (scope : ScopeId) (typeHash : TypeHash)
  | resolveAll (scope : ScopeId) (typeHash : TypeHash)
deriving DecidableEq

/-- A request that a factory makes, and whether it catches what is thrown. -/
structure Request where
  command : Command
  caught : Bool
deriving DecidableEq

inductive CallResult
  | throws
  | returns (object : Option Instance)
deriving DecidableEq

/-- What one call of a factory does. -/
structure FactoryCall where
  requests : List Request
  result : CallResult
deriving DecidableEq

namespace Container

/-! ## Instances -/

section
variable (factory : FactoryProg) (running : List Slot)

/-- `registration.factory(scope)`. -/
def makeInstance (registering : ScopeId) (reg : RegistrationInternal) (scope : ScopeId) :
    M (Option Instance) := do
  let object ← factory running reg.factory scope
  Prog.modify (·.addCompletion ⟨⟨registering, reg.id⟩, scope, object⟩)
  pure object

def getInstanceForScope (registering : ScopeId) (reg : RegistrationInternal) (scope : ScopeId) :
    M (Option Instance) := do
  let s ← Prog.get
  match s.stored (scope, reg.id) with
  | some existing => pure existing
  | none => do
    Prog.modify (·.enter running (scope, reg.id))
    let object ← factory ((scope, reg.id) :: running) reg.factory scope
    -- The slot is not looked up again before the instance is stored.
    Prog.modify fun s => (s.addCompletion ⟨⟨registering, reg.id⟩, scope, object⟩).store
      (scope, reg.id) object
    pure object

/-- `tryLockParent` of a scope, given the scopes around it. -/
def tryLockParent (scope : ScopeId) (parents : List ScopeId) : M Unit := do
  let s ← Prog.get
  match parents with
  | [] => pure ()
  | parent :: _ =>
    if parent ∈ s.destroyed then do
      Prog.modify (·.addOrphan scope)
      Prog.raise .parentDeleted
    else pure ()

/-- `findMatchingScope` along a scope and the scopes around it. -/
def findMatchingScope (tag : String) : List ScopeId → M (Option ScopeId)
  | [] => pure none
  | scope :: parents => do
    let s ← Prog.get
    if s.scopes.hasTag tag scope then pure (some scope)
    else do
      tryLockParent scope parents
      findMatchingScope tag parents

def instantiateRegistration (registering : ScopeId) (reg : RegistrationInternal)
    (requesting : ScopeId) (throwOnNotFound : Bool) : M (Option Instance) := do
  match reg.lifetime with
  | .instancePerRequest => makeInstance factory running registering reg requesting
  | .instancePerScope => getInstanceForScope factory running registering reg requesting
  | .instancePerMatchingScope => do
    let s ← Prog.get
    let matching ← findMatchingScope reg.tag (s.scopes.chain requesting)
    match matching with
    | some scope => getInstanceForScope factory running registering reg scope
    | none =>
      if throwOnNotFound then Prog.raise (.noMatchingScope reg.tag) else pure none
  | .singleInstance => getInstanceForScope factory running registering reg registering

/-- Records which registration an instance was resolved from. -/
def record (typeHash : TypeHash) (registering : ScopeId) (reg : RegistrationInternal)
    (requesting : ScopeId) (object : Option Instance) (s : Container) : Container :=
  match object, s.scopes.ownerOf registering reg requesting with
  | some object, some owner =>
    s.addResolution
      ⟨typeHash, ⟨registering, reg.id⟩, reg.lifetime, requesting, owner, object⟩
  | _, _ => s

def resolveRegistration (typeHash : TypeHash) (registering : ScopeId)
    (reg : RegistrationInternal) (requesting : ScopeId) (throwOnNotFound : Bool) :
    M (Option Instance) := do
  let object ← instantiateRegistration factory running registering reg requesting throwOnNotFound
  Prog.modify (record typeHash registering reg requesting object)
  pure object

/-! ## `resolveInternal` -/

/-- The loop over the local registrations: the instances that are not null. -/
def resolveLocal (typeHash : TypeHash) (registering requesting : ScopeId) :
    List RegistrationInternal → M (List (Option Instance))
  | [] => pure []
  | reg :: regs => do
    let object ← resolveRegistration factory running typeHash registering reg requesting false
    let objects ← resolveLocal typeHash registering requesting regs
    match object with
    | none => pure objects
    | some _ => pure (object :: objects)

/-- `resolveInternal` along a scope and the scopes around it. -/
def resolveInternal (typeHash : TypeHash) (requesting : ScopeId) (resolveSingle : Bool) :
    List ScopeId → M (List (Option Instance))
  | [] => pure []
  | scope :: parents => do
    tryLockParent scope parents
    let s ← Prog.get
    let localRegs := s.scopes.localRegs scope typeHash
    if resolveSingle then
      match localRegs.getLast? with
      | some reg => do
        let object ← resolveRegistration factory running typeHash scope reg requesting true
        pure [object]
      | none => resolveInternal typeHash requesting resolveSingle parents
    else do
      let objects ← resolveLocal factory running typeHash scope requesting localRegs
      let inherited ← resolveInternal typeHash requesting resolveSingle parents
      pure (objects ++ inherited)

/-! ## `DependencyScope` -/

/-- `throwIfNotValid`: a scope that was not begun is a default-constructed one. A scope that was
destroyed cannot be asked for anything. -/
def throwIfNotValid (scope : ScopeId) : M Unit := do
  let s ← Prog.get
  if s.scopes.length ≤ scope then Prog.raise .invalidScope
  else if scope ∈ s.destroyed then Prog.diverge
  else pure ()

def resolve (scope : ScopeId) (typeHash : TypeHash) : M (Option Instance) := do
  throwIfNotValid scope
  Prog.tap (fun result s => s.addAnswer (.resolve scope typeHash result)) do
    let s ← Prog.get
    let instances ←
      resolveInternal factory running typeHash scope true (s.scopes.chain scope)
    match instances with
    | [] => Prog.raise .notFound
    | object :: _ => pure object

def resolveAll (scope : ScopeId) (typeHash : TypeHash) : M (List (Option Instance)) := do
  throwIfNotValid scope
  Prog.tap (fun result s => s.addAnswer (.resolveAll scope typeHash result)) do
    let s ← Prog.get
    resolveInternal factory running typeHash scope false (s.scopes.chain scope)

/-- Begins a scope below `parent`, with a builder that goes on from its counter. -/
def beginScope (parent : Option ScopeId) (tag : String) (registrations : List Registering) :
    M Unit := do
  let s ← Prog.get
  let builder : ContainerBuilder :=
    { registrationCounter := s.scopes.baseId parent, registrations := [] }
  match builder.registerAll registrations with
  | .error e => Prog.raise e
  | .ok builder =>
    Prog.modify (·.addScope (.create builder tag (s.scopes.ancestorsOf parent)))

def build (registrations : List Registering) : M Unit := beginScope none "" registrations

def beginLifetimeScope (parent : ScopeId) (tag : String) (registrations : List Registering) :
    M Unit := do
  throwIfNotValid parent
  beginScope (some parent) tag registrations

def runCommand : Command → M Unit
  | .build registrations => build registrations
  | .beginLifetimeScope parent tag registrations => beginLifetimeScope parent tag registrations
  | .resolve scope typeHash => do
    let _ ← resolve factory running scope typeHash
    pure ()
  | .resolveAll scope typeHash => do
    let _ ← resolveAll factory running scope typeHash
    pure ()

/-! ## Factories -/

def runRequests : List Request → M Unit
  | [] => pure ()
  | request :: requests => do
    let result ← Prog.attempt (runCommand factory running request.command)
    match result with
    | .error e =>
      if request.caught then runRequests requests else Prog.raise e
    | .ok () => runRequests requests

end

/-- What the factories do, each call by its number, with calls nested at most to the depth. -/
def callFactory (calls : Nat → FactoryCall) : Nat → FactoryProg
  | 0 => fun _ _ _ => Prog.diverge
  | depth + 1 => fun running _ _ => Prog.tap countThrow do
    let s ← Prog.get
    Prog.modify countCall
    let call := calls s.calls
    runRequests (callFactory calls depth) running call.requests
    match call.result with
    | .throws => Prog.raise .factory
    | .returns object => pure object

/-! ## Steps -/

inductive Action
  /-- A command, and how far its factory calls are nested. -/
  | run (command : Command) (depth : Nat)
  | destroy (scope : ScopeId)
deriving DecidableEq

/-- A command runs to its end, whether it throws or not. -/
def step (calls : Nat → FactoryCall) (s : Container) : Action → Option Container
  | .run command depth => (runCommand (callFactory calls depth) [] command s).map (·.2)
  | .destroy scope =>
    if scope < s.scopes.length ∧ scope ∉ s.destroyed then some (s.destroy scope) else none

end Container

end Stormancer.Di
