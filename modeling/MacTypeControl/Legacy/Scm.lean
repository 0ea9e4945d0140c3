import MacTypeControl.Checks
import MacTypeControl.Text.Chars
import Mathlib.Algebra.GroupWithZero.Nat

/-!
# The legacy service as the service manager describes it

Its configuration, which configurations are ours, and which snapshots of it can
be put back.
-/

namespace MacTypeControl.Legacy

open Text

inductive ServicePresence where
  | absent
  | owned
  | compatibleUnquoted
  | foreign
  | deletePending
  | inaccessible
  deriving DecidableEq

inductive ServiceRuntimeState where
  | stopped
  | startPending
  | stopPending
  | running
  | continuePending
  | pausePending
  | paused
  | unknown
  deriving DecidableEq

structure ServiceConfiguration where
  displayName : String
  binaryPath : String
  serviceType : ℕ
  startType : ℕ
  errorControl : ℕ
  loadOrderGroup : Option String
  tagId : ℕ
  account : String
  dependencies : List String
  deriving DecidableEq

def ServiceConfiguration.withStartType (configuration : ServiceConfiguration) (startType : ℕ) :
    ServiceConfiguration :=
  { configuration with startType }

structure FailureAction where
  actionType : ℤ
  delayMs : ℕ
  deriving DecidableEq

structure FailureActionsConfiguration where
  resetPeriodSeconds : ℕ
  rebootMessage : Option String
  command : Option String
  actions : List FailureAction
  deriving DecidableEq

structure ServiceExtendedConfiguration where
  description : Option String
  failureActions : FailureActionsConfiguration
  failureActionsOnNonCrash : Bool
  delayedAutoStart : Bool
  serviceSidType : ℕ
  requiredPrivileges : List String
  preshutdownTimeoutMs : ℕ
  securityDescriptor : List UInt8
  deriving DecidableEq

structure LegacyScmSnapshot where
  presence : ServicePresence
  state : ServiceRuntimeState
  configuration : ServiceConfiguration
  extended : ServiceExtendedConfiguration
  deriving DecidableEq

/-- The live service. Only a service without triggers has a snapshot. -/
structure LegacyService where
  configuration : ServiceConfiguration
  extended : ServiceExtendedConfiguration
  hasTriggers : Bool
  state : ServiceRuntimeState
  deriving DecidableEq

def serviceAutoStart : ℕ := 2

def serviceDisabled : ℕ := 4

def ServicePresence.isOwned : ServicePresence → Bool
  | .owned | .compatibleUnquoted => true
  | _ => false

def ServiceRuntimeState.isStable : ServiceRuntimeState → Bool
  | .running | .stopped => true
  | _ => false

/-- Drops the verbatim marker that canonical paths carry. -/
def serviceCommandPath (path : String) : String :=
  if "\\\\?\\".toList.isPrefixOf path.toList then String.ofList (path.toList.drop 4) else path

def trustedBinary (root : String) : String := serviceCommandPath (root ++ "\\MacTray.exe")

def quotedCommand (root : String) : String := "\"" ++ trustedBinary root ++ "\" -service"

def unquotedCommand (root : String) : String := trustedBinary root ++ " -service"

def sameText (a b : String) : Bool := eqIgnoreAsciiCase a.toList b.toList

/-- The shape of our service, its start type and its command line apart. -/
def ownedShape (configuration : ServiceConfiguration) : Bool :=
  configuration.serviceType == 0x10 && configuration.errorControl == 1 &&
    configuration.displayName == "MacType" && configuration.loadOrderGroup == none &&
    configuration.tagId == 0 && sameText configuration.account "LocalSystem" &&
    configuration.dependencies.length == 1 &&
    configuration.dependencies.all fun dependency => sameText dependency "winmgmt"

def classifyConfiguration (configuration : ServiceConfiguration) (root : String) :
    ServicePresence :=
  if ownedShape configuration &&
      (configuration.startType == serviceAutoStart || configuration.startType == serviceDisabled)
  then
    let actual := String.ofList (trim configuration.binaryPath.toList)
    if sameText actual (quotedCommand root) then .owned
    else if sameText actual (unquotedCommand root) then .compatibleUnquoted
    else .foreign
  else .foreign

/-- What a receipt accepts: the start type must be automatic and the command
line is not trimmed. -/
def validateServiceConfiguration (root : String) (configuration : ServiceConfiguration) :
    Except String Unit :=
  require (ownedShape configuration && configuration.startType == serviceAutoStart &&
      (sameText configuration.binaryPath (quotedCommand root) ||
        sameText configuration.binaryPath (unquotedCommand root)))
    "legacy migration receipt contains foreign SCM configuration"

def supportedSidType (sidType : ℕ) : Bool := sidType == 0 || sidType == 1 || sidType == 3

def supportedAction (action : FailureAction) : Bool :=
  0 ≤ action.actionType && action.actionType ≤ 4

/-- The number of UTF-16 code units of a text. -/
def utf16Length (text : String) : ℕ :=
  (text.toList.map fun c => if c.toNat < 0x10000 then 1 else 2).sum

def restorableString (text : String) : Bool :=
  !text.toList.contains '\x00' && utf16Length text ≤ 32767

def validateSnapshotString (name text : String) : Except String Unit :=
  require (restorableString text) ("legacy SCM " ++ name ++ " is not safely restorable")

def validateOptionalString (name : String) (text : Option String) : Except String Unit :=
  match text with
  | none => .ok ()
  | some text => validateSnapshotString name text

def maxFailureActions : ℕ := 64

def maxRequiredPrivileges : ℕ := 64

def maxSecurityDescriptorBytes : ℕ := 64 * 1024

/-- Whether a snapshot can be put back. `validDescriptor` is the check of the
descriptor's own format. -/
def validateSnapshotForRestore (validDescriptor : List UInt8 → Bool)
    (snapshot : LegacyScmSnapshot) : Except String Unit := do
  let configuration := snapshot.configuration
  let extended := snapshot.extended
  require snapshot.state.isStable
    "legacy SCM service must be exactly running or stopped for migration"
  validateSnapshotString "display name" configuration.displayName
  validateSnapshotString "binary path" configuration.binaryPath
  validateSnapshotString "account" configuration.account
  require (configuration.loadOrderGroup != some "")
    "legacy SCM load-order group must use None for an empty value"
  validateOptionalString "load-order group" configuration.loadOrderGroup
  configuration.dependencies.forM (validateSnapshotString "dependency")
  require (extended.description != some "")
    "legacy SCM description must use None for an empty value"
  validateOptionalString "description" extended.description
  validateOptionalString "failure reboot message" extended.failureActions.rebootMessage
  validateOptionalString "failure command" extended.failureActions.command
  require (extended.failureActions.actions.length ≤ maxFailureActions &&
      extended.failureActions.actions.all supportedAction)
    "legacy SCM failure actions are not safely restorable"
  require (supportedSidType extended.serviceSidType &&
      extended.requiredPrivileges.length ≤ maxRequiredPrivileges)
    "legacy SCM SID or privilege configuration is invalid"
  extended.requiredPrivileges.forM (validateSnapshotString "required privilege")
  require (extended.securityDescriptor != [] &&
      extended.securityDescriptor.length ≤ maxSecurityDescriptorBytes)
    "legacy SCM security descriptor size is invalid"
  require (validDescriptor extended.securityDescriptor)
    "legacy SCM security descriptor is invalid"

end MacTypeControl.Legacy
