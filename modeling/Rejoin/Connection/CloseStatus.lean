/-! The status that comes with a closed connection: a code and perhaps a reason. Codes below
`CloseStatus.gatewayThreshold` belong to the transport and leave the session resumable; those from
it on are the gateway's own. -/

namespace Rejoin

structure CloseStatus where
  code : UInt16
  reason : Option String := none
  deriving DecidableEq

namespace CloseStatus

def gatewayThreshold : UInt16 := 4000

/-- The codes after which connecting again cannot help. -/
def nonRetryableCodes : List UInt16 := [4004, 4010, 4011, 4012, 4013, 4014]

def normal : CloseStatus := ⟨1000, none⟩

def abnormal : CloseStatus := ⟨1006, none⟩

def isGatewayCode (status : CloseStatus) : Bool := gatewayThreshold ≤ status.code

def text (status : CloseStatus) : String :=
  match status.reason with
  | some reason => toString status.code.toNat ++ " (" ++ reason ++ ")"
  | none => toString status.code.toNat

end CloseStatus

end Rejoin
