import Eliot.Text.Basic

/-- A UUID: one that the server drew while it served a request, told apart by the number of the
    request and the place of the draw, or one that a client made up. -/
inductive Uuid where
  | drawn (request place : Nat)
  | given (name : Text)
deriving DecidableEq

def Uuid.drawnBy (number : Nat) : Uuid → Bool
  | .drawn request _ => request = number
  | .given _ => false

inductive ReadableState where
  | pending
  | readable
  | readableWithWarnings
  | needsConversion
  | failed
deriving DecidableEq

/-- `readable_state IN ('readable','readable_with_warnings')` -/
def ReadableState.isReadable : ReadableState → Bool
  | .readable | .readableWithWarnings => true
  | _ => false
