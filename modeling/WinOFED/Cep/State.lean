import Mathlib

/-! The states of a connection end point (CEP) and their bits. -/
namespace WinOFED.Cep

/-- `cep_state_t`. -/
inductive CepState
  | idle
  | listen
  | established
  | timewait
  | sreqSent
  | sreqRcvd
  | error
  | destroy
  | preReq
  | reqRcvd
  | preRep
  | reqSent
  | reqMraRcvd
  | reqMraSent
  | preRepMraSent
  | repRcvd
  | repSent
  | repMraRcvd
  | repMraSent
  | lapRcvd
  | preApr
  | lapSent
  | lapMraRcvd
  | lapMraSent
  | preAprMraSent
  | dreqSent
  | dreqRcvd
  | dreqDestroy
deriving DecidableEq, Repr

namespace CepState

def rcvdBit : Nat := 0x10000000
def sentBit : Nat := 0x20000000
def mraBit : Nat := 0x01000000
def reqBit : Nat := 0x00000001
def repBit : Nat := 0x00000002
def lapBit : Nat := 0x00000004
def dreqBit : Nat := 0x00000010
def destroyingBit : Nat := 0x00010000
def prepBit : Nat := 0x00100000

/-- The value of a state in the enumeration. -/
def bits : CepState → Nat
  | idle => 0
  | listen => 1
  | established => 2
  | timewait => 3
  | sreqSent => 4
  | sreqRcvd => 5
  | error => 6
  | destroy => destroyingBit
  | preReq => prepBit
  | reqRcvd => reqBit ||| rcvdBit
  | preRep => reqBit ||| rcvdBit ||| prepBit
  | reqSent => reqBit ||| sentBit
  | reqMraRcvd => reqBit ||| sentBit ||| mraBit
  | reqMraSent => reqBit ||| rcvdBit ||| mraBit
  | preRepMraSent => reqBit ||| rcvdBit ||| mraBit ||| prepBit
  | repRcvd => repBit ||| rcvdBit
  | repSent => repBit ||| sentBit
  | repMraRcvd => repBit ||| sentBit ||| mraBit
  | repMraSent => repBit ||| rcvdBit ||| mraBit
  | lapRcvd => lapBit ||| rcvdBit
  | preApr => lapBit ||| rcvdBit ||| prepBit
  | lapSent => lapBit ||| sentBit
  | lapMraRcvd => lapBit ||| sentBit ||| mraBit
  | lapMraSent => lapBit ||| rcvdBit ||| mraBit
  | preAprMraSent => lapBit ||| rcvdBit ||| mraBit ||| prepBit
  | dreqSent => dreqBit ||| sentBit
  | dreqRcvd => dreqBit ||| rcvdBit
  | dreqDestroy => dreqBit ||| sentBit ||| destroyingBit

/-- The state has the `CEP_STATE_PREP` bit. -/
def prep (state : CepState) : Bool := state.bits &&& prepBit ≠ 0

/-- The state has the `CEP_STATE_SENT` bit. -/
def sent (state : CepState) : Bool := state.bits &&& sentBit ≠ 0

/-- The state has the `CEP_STATE_MRA` bit. -/
def mra (state : CepState) : Bool := state.bits &&& mraBit ≠ 0

/-- The bits of the message the state is about, `CEP_MSG_MASK`. -/
def msg (state : CepState) : Nat := state.bits &&& 0xFF

/-- The state with the `CEP_STATE_MRA` bit, where there is one. -/
def withMra : CepState → CepState
  | reqSent => reqMraRcvd
  | repSent => repMraRcvd
  | lapSent => lapMraRcvd
  | reqRcvd => reqMraSent
  | preRep => preRepMraSent
  | repRcvd => repMraSent
  | lapRcvd => lapMraSent
  | preApr => preAprMraSent
  | state => state

/-- The state with the `CEP_STATE_PREP` bit, where there is one. -/
def withPrep : CepState → CepState
  | reqRcvd => preRep
  | reqMraSent => preRepMraSent
  | lapRcvd => preApr
  | lapMraSent => preAprMraSent
  | state => state

end CepState
end WinOFED.Cep
