import Mathlib.Data.Rat.Floor

/-! Numbers of the source language, as far as they are compared and rounded.

A comparison with `nan` is false, whichever side it stands on. -/
namespace OpenClaw.Foundation

inductive EcmaNumber where
  | nan
  | negInfinity
  | finite (value : ℚ)
  | infinity
  deriving DecidableEq

namespace EcmaNumber

/-- `a <= b`. -/
def le : EcmaNumber → EcmaNumber → Bool
  | nan, _ => false
  | _, nan => false
  | negInfinity, _ => true
  | _, infinity => true
  | finite a, finite b => a ≤ b
  | _, _ => false

def floor : EcmaNumber → EcmaNumber
  | finite value => finite value.floor
  | x => x

def max : EcmaNumber → EcmaNumber → EcmaNumber
  | nan, _ => nan
  | _, nan => nan
  | a, b => if a.le b then b else a

/-- A whole number. -/
def ofNat (n : Nat) : EcmaNumber := finite n

end EcmaNumber

end OpenClaw.Foundation
