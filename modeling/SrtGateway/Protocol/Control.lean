/-
The control frames for the base node (`protocol.py`), and their payload fields.
-/
import SrtGateway.Protocol.Framing

namespace SrtGateway.Protocol

open SrtGateway.Bytes

def T_SET_ARMED : ℕ := 0x81
def T_SET_EPOCH : ℕ := 0x82
def T_SET_SLOTMAP : ℕ := 0x83
def T_SET_TIMING : ℕ := 0x84
def T_PING : ℕ := 0x85

/-- `n & (2 ** bits - 1)` for a Python integer. -/
def maskBits (bits : ℕ) (n : ℤ) : ℕ := (n % 2 ^ bits).toNat

def encodeSetArmed (armed : Bool) : Except PyErr (List UInt8) :=
  encodeFrame T_SET_ARMED [if armed then 1 else 0]

def encodeSetEpoch (frameEpochMs : ℤ) : Except PyErr (List UInt8) :=
  encodeFrame T_SET_EPOCH (packLE 8 (maskBits 64 frameEpochMs))

def encodeSetTiming (slotCount toaMs guardMs : ℤ) : Except PyErr (List UInt8) :=
  encodeFrame T_SET_TIMING
    (packLE 1 (maskBits 8 slotCount) ++ packLE 2 (maskBits 16 toaMs) ++
      packLE 2 (maskBits 16 guardMs))

def encodeSetSlotmap (entries : List (ℤ × ℤ)) : Except PyErr (List UInt8) :=
  encodeFrame T_SET_SLOTMAP
    (packLE 1 (entries.length &&& 0xFF) ++ entries.flatMap fun (nodeId, slot) =>
      packLE 2 (maskBits 16 nodeId) ++ packLE 1 (maskBits 8 slot))

end SrtGateway.Protocol
