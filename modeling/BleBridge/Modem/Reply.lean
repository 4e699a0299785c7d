import BleBridge.Fault
import BleBridge.Text.Blank
import BleBridge.Text.Search

/-! # Lines and replies of the module -/

namespace BleBridge.Modem

def successToken : String := "OK"
def failureToken : String := "ERROR"
def moduleErrorLead : String := "+CME ERROR:"
def defaultReportMarker : String := "+COMMAND:"

inductive Status where
  | success | failure | moduleError
deriving DecidableEq, Repr

def Status.isSuccess : Status → Bool
  | .success => true
  | _ => false

/-- The outcome that a line announces, if it ends a reply. -/
def terminalStatus (line : String) : Option Status :=
  if Text.startsWith line moduleErrorLead then some .moduleError
  else if Text.contains line failureToken then some .failure
  else if Text.contains line successToken then some .success
  else none

inductive LineKind where
  | report (segments : List String)
  | terminal (status : Status)
  | raw
deriving DecidableEq, Repr

/-- The trimmed pieces between the markers, without the empty ones. -/
def splitReport (line marker : String) : List String :=
  (((Text.splitAt marker.toList line.toList).map Text.trimChars).filter (!·.isEmpty)).map
    String.ofList

def classifyLine (line marker : String) : LineKind :=
  if marker ≠ "" ∧ Text.contains line marker then .report (splitReport line marker)
  else match terminalStatus line with
    | some status => .terminal status
    | none => .raw

def trimmedLines (response : String) : List String :=
  (Text.lines response.toList).map fun l => String.ofList (Text.trimChars l)

/-- The code on the first module error line of a reply. -/
def moduleErrorCode (response : String) : Option String :=
  ((trimmedLines response).findSome? (Text.dropLead? moduleErrorLead)).map Text.trim

def checkResponse (response : String) : Except Fault Unit :=
  match moduleErrorCode response with
  | some code => .error (.moduleError code response)
  | none =>
      if Text.contains response failureToken then .error (.commandFailed response)
      else if Text.contains response successToken then .ok ()
      else .error (.unexpected response)

/-- The value on the first `+tag:` line, or else the first line that neither ends a reply nor
echoes a command. -/
def infoField (response tag : String) : Option String :=
  let ls := (trimmedLines response).filter (· ≠ "")
  let value := ls.findSome? (Text.dropLead? ("+" ++ tag ++ ":"))
  let value := value.or
    (ls.find? fun l => (terminalStatus l).isNone && !Text.startsWith l "AT+")
  value.map Text.trim

inductive State where
  | uninitialized | initialized | advertising | connected | disconnected
deriving DecidableEq, Repr

namespace State

def token : State → String
  | .uninitialized => "NOINIT"
  | .initialized => "INIT"
  | .advertising => "ADVERTISING"
  | .connected => "CONNECTED"
  | .disconnected => "DISCONNECTED"

/-- A token that holds another one stands before it. -/
def searchOrder : List State :=
  [.uninitialized, .disconnected, .advertising, .connected, .initialized]

def parse (response : String) : State :=
  (searchOrder.find? fun s => Text.contains response s.token).getD .uninitialized

def ofToken? (token : String) : Option State := searchOrder.find? (·.token == token)

end State

end BleBridge.Modem
