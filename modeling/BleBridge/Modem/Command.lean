import BleBridge.Fault
import BleBridge.Text.Bytes

/-! # Command lines for the module -/

namespace BleBridge.Modem

inductive Role where
  | central | peripheral | multiConnection
deriving DecidableEq, Repr

def Role.code : Role → Nat
  | .central => 1
  | .peripheral => 2
  | .multiConnection => 4

def Role.ofCode : Nat → Except Fault Role
  | 1 => .ok .central
  | 2 => .ok .peripheral
  | 4 => .ok .multiConnection
  | code => .error (.parameter (.role code))

theorem Role.ofCode_code (r : Role) : Role.ofCode r.code = .ok r := by cases r <;> rfl

namespace Command

def terminator : String := "\r\n"

def line (body : String) : String := body ++ terminator

def restart : String := line "AT+QRST"
def version : String := line "AT+QVERSION"
def address : String := line "AT+QBLEADDR?"
def state : String := line "AT+QBLESTAT"
def finishGattServer : String := line "AT+QBLEGATTSSRVDONE"
def startAdvertising : String := line "AT+QBLEADVSTART"

def defaultInterval : Nat := 150
def maxNameSize : Nat := 29
def maxNotifySize : Nat := 223
def leastTxPower : Int := -20
def mostTxPower : Int := 10
def leastInterval : Nat := 32
def mostInterval : Nat := 16384

def supportedRates : List Nat := [9600, 19200, 38400, 57600, 115200, 230400, 460800, 921600]

def refuse {α : Type} (fault : ParameterFault) : Except Fault α := .error (.parameter fault)

@[simp] theorem refuse_eq_ok_iff {α : Type} (fault : ParameterFault) (a : α) :
    refuse fault = .ok a ↔ False := by simp [refuse]

def isHexDigit (c : Char) : Bool :=
  ('0' ≤ c && c ≤ '9') || ('a' ≤ c && c ≤ 'f') || ('A' ≤ c && c ≤ 'F')

/-- A name may hold visible ASCII characters and spaces, but no comma and no quote. -/
def isNameChar (c : Char) : Bool := ' ' ≤ c && c ≤ '~' && c != ',' && c != '"'

def checkUuid (kind uuid : String) : Except Fault Unit :=
  if uuid = "" then refuse (.uuidEmpty kind)
  else if Text.size uuid ≠ 4 ∧ Text.size uuid ≠ 32 then refuse (.uuidLength kind uuid)
  else if uuid.toList.all isHexDigit then .ok ()
  else refuse (.uuidDigits kind uuid)

def init (role : Nat) : Except Fault String := do
  let role ← Role.ofCode role
  return line s!"AT+QBLEINIT={role.code}"

def setDeviceName (name : String) : Except Fault String :=
  if name = "" then refuse .nameEmpty
  else if maxNameSize < Text.size name then refuse (.nameLength (Text.size name) maxNameSize)
  else match name.toList.find? (!isNameChar ·) with
    | some c => refuse (.nameCharacter c)
    | none => .ok (line ("AT+QBLENAME=" ++ name))

def checkInterval (value : Nat) : Except Fault Unit :=
  if leastInterval ≤ value ∧ value ≤ mostInterval then .ok ()
  else refuse (.interval value leastInterval mostInterval)

def setAdvertisingParams (min max : Nat) : Except Fault String := do
  checkInterval min
  checkInterval max
  if max < min then refuse (.intervalOrder min max)
  else return line s!"AT+QBLEADVPARAM={min},{max}"

def addService (uuid : String) : Except Fault String := do
  checkUuid "service" uuid
  return line ("AT+QBLEGATTSSRV=" ++ uuid)

def addCharacteristic (uuid : String) : Except Fault String := do
  checkUuid "characteristic" uuid
  return line ("AT+QBLEGATTSCHAR=" ++ uuid)

def setTxPower (dbm : Int) : Except Fault String :=
  if leastTxPower ≤ dbm ∧ dbm ≤ mostTxPower then .ok (line s!"AT+QBLETXPWR={dbm}")
  else refuse (.txPower dbm leastTxPower mostTxPower)

def setBaud (rate : Int) : Except Fault String :=
  if rate ∈ supportedRates.map Int.ofNat then .ok (line s!"AT+IPR={rate}")
  else refuse (.baud rate supportedRates)

/-- What every notification through `handle` starts with. -/
def notifyLead (handle : String) : Except Fault String := do
  checkUuid "notify handle" handle
  return "AT+QBLEGATTSNTFY=0," ++ handle ++ ","

def sendNotify (handle text : String) : Except Fault String :=
  if text = "" then refuse .notifyEmpty
  else if maxNotifySize < Text.size text then
    refuse (.notifyLength (Text.size text) maxNotifySize)
  else if text.toList.any fun c => c == '\r' || c == '\n' then refuse .notifyBreak
  else do return line ((← notifyLead handle) ++ text)

/-- The lines that reset the module and bring it up as an advertising peripheral. -/
def peripheralInit (name service characteristic : String) : Except Fault (List String) := do
  let init ← init Role.peripheral.code
  let params ← setAdvertisingParams defaultInterval defaultInterval
  let service ← addService service
  let characteristic ← addCharacteristic characteristic
  let name ← setDeviceName name
  return [restart, init, params, service, characteristic, finishGattServer, name,
    startAdvertising]

end Command

end BleBridge.Modem
