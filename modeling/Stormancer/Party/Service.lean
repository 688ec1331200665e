import Mathlib.Data.List.Lookmap

/-!
# The party state of `PartyService`

The handlers of `PartyService` for the full party state and for the incremental updates, with
`checkVersionNumber`, `syncPartyState`, `updateLeader` and `updateGameFinder`. They run under
`_stateMutex`, one at a time.

A message is modelled by what its parts decode to: `none` says that `readObject` throws, and the
exception then leaves the handler. The connections to the game finder that `updateGameFinder`
starts and stops, and the log, are left out.

Results:
1. `handleUpdate_refused`, `handleUpdate_unread`, `handleUpdate_read`: what an update does, by the
   version check and by whether its payload can be read.
-/

namespace Stormancer.Party

/-! ## Data -/

inductive PartyUserStatus
  | notReady
  | ready
deriving DecidableEq

inductive MemberDisconnectionReason
  | left
  | kicked
deriving DecidableEq

structure PartyUserDto where
  userId : String
  partyUserStatus : PartyUserStatus
  userData : String
  /-- Computed locally. -/
  isLeader : Bool
deriving DecidableEq

structure PartySettings where
  gameFinderName : String
  customData : String
deriving DecidableEq

structure PartySettingsInternal where
  gameFinderName : String
  customData : String
  settingsVersionNumber : Int
deriving DecidableEq

structure PartyState where
  settings : PartySettingsInternal
  leaderId : String
  members : List PartyUserDto
  version : Int
deriving DecidableEq

structure MemberStatusUpdate where
  userId : String
  status : PartyUserStatus
deriving DecidableEq

structure BatchStatusUpdate where
  memberStatus : List MemberStatusUpdate
deriving DecidableEq

structure PartyUserData where
  userId : String
  userData : String
deriving DecidableEq

structure MemberDisconnection where
  userId : String
  reason : MemberDisconnectionReason
deriving DecidableEq

/-- What the events `UpdatedPartySettings` and `UpdatedPartyMembers` were raised with. -/
inductive Event
  | updatedPartySettings (settings : PartySettings)
  | updatedPartyMembers (members : List PartyUserDto)
deriving DecidableEq

structure PartyService where
  state : PartyState
  currentGameFinder : String
  /-- The event `_partyStateReceived` is set. -/
  partyStateReceived : Bool
  isPendingStateSync : Bool
  /-- The calls of `party.getpartystate` that have not ended. -/
  stateRequests : Nat
  events : List Event
  /-- The versions of the updates whose payload was read, oldest first. -/
  applied : List Int
deriving DecidableEq

def PartySettingsInternal.toPartySettings (x : PartySettingsInternal) : PartySettings :=
  ⟨x.gameFinderName, x.customData⟩

/-- `isLeader` is not in the message: a member that was read is no leader. -/
def PartyUserDto.read (m : PartyUserDto) : PartyUserDto := { m with isLeader := false }

def PartyUserDto.setLeader (isLeader : Bool) (m : PartyUserDto) : PartyUserDto :=
  { m with isLeader := isLeader }

def PartyUserDto.setUserData (userData : String) (m : PartyUserDto) : PartyUserDto :=
  { m with userData := userData }

def PartyUserDto.setStatus (status : PartyUserStatus) (m : PartyUserDto) : PartyUserDto :=
  { m with partyUserStatus := status }

def PartyState.read (state : PartyState) : PartyState :=
  { state with members := state.members.map PartyUserDto.read }

/-! ## Members -/

/-- `std::find_if` for a member, and a change of the member that it finds. -/
def modifyFirst (p : PartyUserDto → Bool) (f : PartyUserDto → PartyUserDto)
    (members : List PartyUserDto) : List PartyUserDto :=
  members.lookmap fun m => if p m then some (f m) else none

def hasMember (members : List PartyUserDto) (userId : String) : Bool :=
  members.any fun m => userId == m.userId

def modifyMember (userId : String) (f : PartyUserDto → PartyUserDto)
    (members : List PartyUserDto) : List PartyUserDto :=
  modifyFirst (fun m => userId == m.userId) f members

/-! ## `PartyService` -/

namespace PartyService

def updateGameFinder (s : PartyService) : PartyService :=
  if s.currentGameFinder = s.state.settings.gameFinderName then s
  else { s with currentGameFinder := s.state.settings.gameFinderName }

def updateLeader (s : PartyService) : PartyService :=
  let members := modifyFirst (·.isLeader) (·.setLeader false) s.state.members
  let members := modifyMember s.state.leaderId (·.setLeader true) members
  { s with state := { s.state with members := members } }

def raise (s : PartyService) (e : Event) : PartyService := { s with events := s.events ++ [e] }

def raiseSettings (s : PartyService) : PartyService :=
  s.raise (.updatedPartySettings s.state.settings.toPartySettings)

def raiseMembers (s : PartyService) : PartyService :=
  s.raise (.updatedPartyMembers s.state.members)

def setMembers (s : PartyService) (members : List PartyUserDto) : PartyService :=
  { s with state := { s.state with members := members } }

def syncPartyState (s : PartyService) : PartyService :=
  if s.isPendingStateSync then s
  else { s with isPendingStateSync := true, stateRequests := s.stateRequests + 1 }

def checkVersionNumber (s : PartyService) (versionNumber : Int) : PartyService × Bool :=
  if 0 < s.state.version ∧ versionNumber = s.state.version + 1 then
    ({ s with state := { s.state with version := versionNumber } }, true)
  else (s.syncPartyState, false)

/-! ## Handlers -/

def handlePartyStateResponse (s : PartyService) : Option PartyState → PartyService
  | none => s
  | some state =>
    let s := { s with state := state.read }
    let s := s.updateLeader.updateGameFinder
    let s := { s with partyStateReceived := true, isPendingStateSync := false }
    s.raiseSettings.raiseMembers

/-- The handlers of the incremental updates: the version first, then the payload. -/
def handleUpdate {α : Type} (s : PartyService) (versionNumber : Option Int)
    (payload : Option α) (apply : α → PartyService → PartyService) : PartyService :=
  match versionNumber with
  | none => s
  | some versionNumber =>
    match s.checkVersionNumber versionNumber, payload with
    | (s, false), _ => s
    -- The version is the new one already.
    | (s, true), none => s
    | (s, true), some a => apply a { s with applied := s.applied ++ [versionNumber] }

def handleSettingsUpdate (s : PartyService) (versionNumber : Option Int)
    (payload : Option PartySettingsInternal) : PartyService :=
  s.handleUpdate versionNumber payload fun settings s =>
    let s := { s with state := { s.state with settings := settings } }
    s.updateGameFinder.raiseSettings

def handleUserDataUpdate (s : PartyService) (versionNumber : Option Int)
    (payload : Option PartyUserData) : PartyService :=
  s.handleUpdate versionNumber payload fun update s =>
    if hasMember s.state.members update.userId then
      let members := modifyMember update.userId (·.setUserData update.userData) s.state.members
      (s.setMembers members).raiseMembers
    else s

def handleMemberStatusUpdate (s : PartyService) (versionNumber : Option Int)
    (payload : Option BatchStatusUpdate) : PartyService :=
  s.handleUpdate versionNumber payload fun updates s =>
    let members := updates.memberStatus.foldl (fun members update =>
      modifyMember update.userId (·.setStatus update.status) members) s.state.members
    (s.setMembers members).raiseMembers

def handleMemberConnected (s : PartyService) (versionNumber : Option Int)
    (payload : Option PartyUserDto) : PartyService :=
  s.handleUpdate versionNumber payload fun member s =>
    (s.setMembers (s.state.members ++ [member.read])).raiseMembers

def handleMemberDisconnected (s : PartyService) (versionNumber : Option Int)
    (payload : Option MemberDisconnection) : PartyService :=
  s.handleUpdate versionNumber payload fun message s =>
    if hasMember s.state.members message.userId then
      let members := s.state.members.eraseP fun m => message.userId == m.userId
      (s.setMembers members).raiseMembers
    else s

def handleLeaderChanged (s : PartyService) (versionNumber : Option Int)
    (payload : Option String) : PartyService :=
  s.handleUpdate versionNumber payload fun leaderId s =>
    if s.state.leaderId = leaderId then s
    else
      let s := { s with state := { s.state with leaderId := leaderId } }
      s.updateLeader.raiseMembers

/-! ## Steps -/

/-- The payload of an update, for each of the procedures. -/
inductive Payload
  | settingsUpdated (payload : Option PartySettingsInternal)
  | memberDataUpdated (payload : Option PartyUserData)
  | memberStatusUpdated (payload : Option BatchStatusUpdate)
  | memberConnected (payload : Option PartyUserDto)
  | memberDisconnected (payload : Option MemberDisconnection)
  | leaderChanged (payload : Option String)
deriving DecidableEq

inductive Action
  | getPartyStateResponse (state : Option PartyState)
  | update (versionNumber : Option Int) (payload : Payload)
  /-- The call of `party.getpartystate` completes, fails or is cancelled. -/
  | stateRequestEnded (success : Bool)
deriving DecidableEq

def receiveUpdate (s : PartyService) (versionNumber : Option Int) : Payload → PartyService
  | .settingsUpdated payload => s.handleSettingsUpdate versionNumber payload
  | .memberDataUpdated payload => s.handleUserDataUpdate versionNumber payload
  | .memberStatusUpdated payload => s.handleMemberStatusUpdate versionNumber payload
  | .memberConnected payload => s.handleMemberConnected versionNumber payload
  | .memberDisconnected payload => s.handleMemberDisconnected versionNumber payload
  | .leaderChanged payload => s.handleLeaderChanged versionNumber payload

def step (s : PartyService) : Action → Option PartyService
  | .getPartyStateResponse state => some (s.handlePartyStateResponse state)
  | .update versionNumber payload => some (s.receiveUpdate versionNumber payload)
  | .stateRequestEnded success =>
    if s.stateRequests = 0 then none
    else
      let s := { s with stateRequests := s.stateRequests - 1 }
      -- A success is followed by the response, which resets the flag.
      some (if success then s else { s with isPendingStateSync := false })

def init : PartyService where
  state := ⟨⟨"", "", 0⟩, "", [], 0⟩
  currentGameFinder := ""
  partyStateReceived := false
  isPendingStateSync := false
  stateRequests := 0
  events := []
  applied := []

/-! ## The version check -/

namespace ServiceLemmas

variable {α : Type} {s : PartyService} {v : Int}

theorem checkVersionNumber_next (h : 0 < s.state.version ∧ v = s.state.version + 1) :
    s.checkVersionNumber v = ({ s with state := { s.state with version := v } }, true) :=
  if_pos h

theorem handleUpdate_refused (h : ¬ (0 < s.state.version ∧ v = s.state.version + 1))
    (payload : Option α) (apply : α → PartyService → PartyService) :
    s.handleUpdate (some v) payload apply = s.syncPartyState := by
  have hcheck : s.checkVersionNumber v = (s.syncPartyState, false) := if_neg h
  unfold handleUpdate
  simp only [hcheck]

theorem handleUpdate_unread (h : 0 < s.state.version ∧ v = s.state.version + 1)
    (apply : α → PartyService → PartyService) :
    s.handleUpdate (some v) none apply = { s with state := { s.state with version := v } } := by
  unfold handleUpdate
  simp only [checkVersionNumber_next h]

theorem handleUpdate_read (h : 0 < s.state.version ∧ v = s.state.version + 1) (a : α)
    (apply : α → PartyService → PartyService) :
    s.handleUpdate (some v) (some a) apply =
      apply a { s with
        state := { s.state with version := v }
        applied := s.applied ++ [v] } := by
  unfold handleUpdate
  simp only [checkVersionNumber_next h]

end ServiceLemmas

end PartyService

end Stormancer.Party
