/-
The serial reader (`serial_io.py`): connection management and the read/parse cycle.

What the outside world does is a parameter of each cycle: `OpenEnv` holds what one round
of the reconnect loop meets (the stop flag, the devices present, what opening a port does)
and `PollEnv` what one call of `poll_once` meets.  A cycle returns how it was left, the new
reader state and the events it caused, in order.
-/
import SrtGateway.Protocol.Framing
import Mathlib.Data.Rat.Defs
import Mathlib.Data.String.Basic
import Mathlib.Algebra.Order.Field.Rat

namespace SrtGateway.SerialIo

open SrtGateway.Protocol

/-- A serial-like object, with what `getattr(ser, "is_open", True)` gives for it. -/
structure SerialObj where
  isOpen : Bool
deriving DecidableEq, Repr

/-- The constructor arguments of a `SerialReader` that stay fixed. -/
structure Settings where
  portGlobs : List String := ["/dev/ttyACM*", "/dev/ttyUSB*"]
  /-- Whether an `open_serial` factory was injected. -/
  hasFactory : Bool := false
  baud : ℕ := 115200
  backoffBase : ℚ := 1 / 2
  backoffMax : ℚ := 10

/-- The mutable fields of a `SerialReader`. -/
structure SerialReader where
  port : Option String
  ser : Option SerialObj
  parser : FrameParser
  connected : Bool
  framesTotal : ℕ
  reconnects : ℕ
  /-- The exception whose `repr` is in `last_error`. -/
  lastError : Option PyErr
  everConnected : Bool

def DEFAULT_PORT : String := "/dev/ttyACM1"

/-- The state set up by `__init__`, given `port` and `serial_obj`. -/
def SerialReader.new (port : Option String) (serialObj : Option SerialObj) : SerialReader :=
  let connected := match serialObj with
    | some s => s.isOpen
    | none => false
  { port := port, ser := serialObj, parser := .new, connected := connected, framesTotal := 0,
    reconnects := 0, lastError := none, everConnected := connected }

/-- What one round of the reconnect loop meets. -/
structure OpenEnv where
  /-- `_stop.is_set()` at the head of the loop. -/
  stop : Bool
  /-- What the injected factory does. -/
  factory : Except PyErr SerialObj
  /-- What `import serial` does. -/
  importSerial : Except PyErr Unit
  /-- `glob.glob`: the paths of the present devices that match a pattern. -/
  globber : String → List String
  globber_ne : ∀ pattern, "" ∉ globber pattern
  /-- What `serial.Serial(dev, baud, ...)` does. -/
  serialSerial : String → ℕ → Except PyErr SerialObj

/-- What one call of `poll_once` meets: the rounds of the reconnect loop, as far as they
are known, and the outcome of the read. -/
structure PollEnv where
  attempts : List OpenEnv
  read : Except PyErr (List UInt8)

/-- What the reader does to bring the link up. -/
inductive LinkEvent where
  | sleep (delay : ℚ)
  /-- A call of `_open`. -/
  | attempt
  /-- `_open` went for a real port: the device it used, `none` when it found none. -/
  | openDevice (env : OpenEnv) (dev : Option String)

/-- The decoder, and whether the callback returns normally. -/
structure Handlers (δ : Type) where
  decodePayload : Frame → Except PyErr δ
  onFrame : Frame → δ → Bool

/-! ### Finding and opening a port -/

/-- A string that counts as true in a condition. -/
def truthy (s : Option String) : Option String := s.filter (· ≠ "")

/-- The device that the globs select: the first of the sorted matches of the first pattern
with a match. -/
def detect (globs : List String) (globber : String → List String) : Option String :=
  globs.findSome? fun pattern => ((globber pattern).mergeSort (fun a b => decide (a ≤ b))).head?

/-- `find_base_port`. -/
def findBasePort (configured : Option String) (globs : List String)
    (globber : String → List String) : Option String :=
  match truthy configured with
  | some c => some c
  | none => detect globs globber

/-- `_close`. -/
def SerialReader.close (r : SerialReader) : SerialReader :=
  { r with connected := false, ser := none }

/-- `_open`: the outcome, the state left behind (the port is stored before the device is
opened) and the events. -/
def SerialReader.open_ (cfg : Settings) (r : SerialReader) (e : OpenEnv) :
    Except PyErr Unit × SerialReader × List LinkEvent :=
  if cfg.hasFactory then
    match e.factory with
    | .error x => (.error x, r, [])
    | .ok s => (.ok (), { r with ser := some s, connected := s.isOpen }, [])
  else
    match r.ser with
    | some s => (.ok (), { r with connected := s.isOpen }, [])
    | none =>
      match e.importSerial with
      | .error x => (.error x, r, [])
      | .ok () =>
        match truthy (findBasePort r.port cfg.portGlobs e.globber) with
        | none => (.error (.serialError "no serial device found"), r, [.openDevice e none])
        | some dev =>
          let r := { r with port := some dev }
          match e.serialSerial dev cfg.baud with
          | .error x => (.error x, r, [.openDevice e (some dev)])
          | .ok s =>
            (.ok (), { r with ser := some s, connected := s.isOpen }, [.openDevice e (some dev)])

/-! ### The reconnect loop -/

/-- The least integer that has no finite double. -/
def doubleLimit : ℕ := 2 ^ 1024

/-- `x * n` for a float `x` and an int `n`: the int is converted to a double first. -/
def floatMulInt (x : ℚ) (n : ℕ) : Except PyErr ℚ :=
  if doubleLimit ≤ n then .error .overflowError else .ok (x * n)

/-- `min(backoff_base * (2 ** attempt), backoff_max)`. -/
def backoffDelay (cfg : Settings) (attempt : ℕ) : Except PyErr ℚ :=
  (floatMulInt cfg.backoffBase (2 ^ attempt)).map (min · cfg.backoffMax)

/-- How the reconnect loop is left; `running` when the known rounds are used up. -/
inductive ReconnectExit where
  | returned (ok : Bool)
  | raised (x : PyErr)
  | running
deriving DecidableEq, Repr

/-- The `while` loop of `_reconnect`, from a given value of `attempt`. -/
def reconnectLoop (cfg : Settings) (firstEver : Bool) :
    ℕ → List OpenEnv → SerialReader → ReconnectExit × SerialReader × List LinkEvent
  | _, [], r => (.running, r, [])
  | attempt, e :: es, r =>
    if e.stop then (.returned false, r, [])
    else
      let delay := if firstEver && attempt == 0 then .ok none
        else (backoffDelay cfg attempt).map some
      match delay with
      | .error x => (.raised x, r, [])
      | .ok delay =>
        let slept := delay.toList.map LinkEvent.sleep ++ [.attempt]
        match r.open_ cfg e with
        | (.ok (), r, evs) =>
          let reconnects := if firstEver then r.reconnects else r.reconnects + 1
          (.returned true, { r with reconnects := reconnects, everConnected := true },
            slept ++ evs)
        | (.error x, r, evs) =>
          let (exit, r', evs') :=
            reconnectLoop cfg firstEver (attempt + 1) es { r with lastError := some x }
          (exit, r', slept ++ evs ++ evs')

/-- `_reconnect`. -/
def SerialReader.reconnect (cfg : Settings) (r : SerialReader) (es : List OpenEnv) :
    ReconnectExit × SerialReader × List LinkEvent :=
  reconnectLoop cfg (r.reconnects == 0 && !r.everConnected) 0 es r

/-! ### The read/parse cycle -/

variable {δ : Type}

/-- `_dispatch`: whether the frame was delivered, and the call of `on_frame`, if one was
made. -/
def dispatch (H : Handlers δ) (frame : Frame) : Bool × Option (Frame × δ) :=
  match H.decodePayload frame with
  | .error _ => (false, none)
  | .ok decoded => (H.onFrame frame decoded, some (frame, decoded))

/-- The exceptions of a read that are handled as a lost link, by either `except`. -/
def PyErr.isReadFault : PyErr → Bool
  | .osError | .serialError _ | .notConnected _ => true
  | .typeError | .attributeError | .valueError _ => true
  | _ => false

/-- How a cycle is left. -/
inductive PollExit where
  | returned (delivered : ℕ)
  | raised (x : PyErr)
  | running
deriving DecidableEq, Repr

/-- One call of `poll_once`: how it is left, the state after it, what it did to bring the
link up, and the calls of `on_frame` it then made. -/
structure PollResult (δ : Type) where
  exit : PollExit
  reader : SerialReader
  link : List LinkEvent
  calls : List (Frame × δ)

/-- The condition under which a cycle starts with `_reconnect`. -/
def SerialReader.needsReconnect (r : SerialReader) : Bool := r.ser.isNone || !r.connected

/-- The part of `poll_once` after the link is up. -/
def SerialReader.readCycle (H : Handlers δ) (r : SerialReader)
    (read : Except PyErr (List UInt8)) : PollResult δ :=
  match r.ser with
  | none => ⟨.returned 0, r.close, [], []⟩
  | some _ =>
    match read with
    | .error x =>
      if PyErr.isReadFault x then ⟨.returned 0, { r with lastError := some x }.close, [], []⟩
      else ⟨.raised x, r, [], []⟩
    | .ok chunk =>
      if chunk = [] then ⟨.returned 0, r, [], []⟩
      else
        let (frames, parser) := r.parser.push chunk
        let results := frames.map (dispatch H)
        let delivered := results.countP Prod.fst
        ⟨.returned delivered,
          { r with parser := parser, framesTotal := r.framesTotal + delivered }, [],
          results.filterMap Prod.snd⟩

/-- `poll_once`. -/
def SerialReader.pollOnce (cfg : Settings) (H : Handlers δ) (r : SerialReader) (env : PollEnv) :
    PollResult δ :=
  if r.needsReconnect then
    match r.reconnect cfg env.attempts with
    | (.raised x, r, evs) => ⟨.raised x, r, evs, []⟩
    | (.running, r, evs) => ⟨.running, r, evs, []⟩
    | (.returned false, r, evs) => ⟨.returned 0, r, evs, []⟩
    | (.returned true, r, evs) =>
      let result := r.readCycle H env.read
      { result with link := evs ++ result.link }
  else r.readCycle H env.read

/-! ### Sending -/

/-- The exceptions of a write that mean that the link broke. -/
def PyErr.isSerialException : PyErr → Bool
  | .osError | .serialError _ | .notConnected _ => true
  | _ => false

/-- `send`, given what writing the frame and flushing do; an exception comes with its `repr`. -/
def SerialReader.send (r : SerialReader) (write : Except (PyErr × String) Unit) :
    Except PyErr Unit × SerialReader :=
  if !r.connected || r.ser.isNone then
    (.error (.notConnected "serial port not connected"), r)
  else
    match write with
    | .ok () => (.ok (), r)
    | .error (x, repr) =>
      if PyErr.isSerialException x then
        (.error (.notConnected ("write failed: " ++ repr)), { r with lastError := some x }.close)
      else (.error x, r)

/-! ### Runs -/

/-- One cycle of a run: the state it started in, what it met, and what came of it. -/
structure Cycle (δ : Type) where
  before : SerialReader
  env : PollEnv
  result : PollResult δ

/-- The cycles of a run of `poll_once` calls.  A call that raises, or that is still inside
the reconnect loop, is the last. -/
def cycles (cfg : Settings) (H : Handlers δ) : SerialReader → List PollEnv → List (Cycle δ)
  | _, [] => []
  | r, env :: envs =>
    let result := r.pollOnce cfg H env
    ⟨r, env, result⟩ ::
      match result.exit with
      | .returned _ => cycles cfg H result.reader envs
      | _ => []

end SrtGateway.SerialIo
