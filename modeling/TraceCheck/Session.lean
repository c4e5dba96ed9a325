import TraceCheck.Checker.Call
import TraceCheck.Instruction.Listing

/-!
# `TraceCheck.Session`: the checker as a service

A session is a checker with the default settings behind a small set of requests. It
takes operands unchecked and branch outcomes checked, renders and resets, and answers
questions about opcodes, which do not touch the checker. What goes wrong is told as
text.
-/

set_option autoImplicit false

namespace TraceCheck

/-- A request to a session. -/
inductive Request where
  /-- Apply an instruction with its operand. -/
  | dispatch (opcode operand : Byte)
  /-- Apply a conditional branch with its outcome. -/
  | branch (opcode : Byte) (taken : Bool)
  /-- Apply a hardware interrupt. -/
  | interrupt (status : Byte)
  /-- Report the state line and clear the fault. -/
  | render
  /-- Forget everything. -/
  | reset
  /-- The mnemonic of an opcode. -/
  | mnemonic (opcode : Byte)
  /-- The size of an opcode's instruction. -/
  | length (opcode : Byte)
  /-- The assembly text of an instruction. -/
  | format (opcode : Byte) (operands : List Byte) (label : Option String)

/-- A session's response. -/
inductive Response where
  /-- The request was carried out. -/
  | done
  /-- A text. -/
  | text (s : String)
  /-- A number of bytes. -/
  | size (n : Nat)
  /-- The request failed, for the reason told. -/
  | failed (message : String)
deriving DecidableEq

namespace Session

/-- The checker of a new session. -/
def start : Checker := Checker.fresh {}

/-- A checker's answer as a response. -/
def respond : Reply → Response
  | .rejected r => .failed r.message
  | .line s => .text s
  | _ => .done

/-- Passes a call on to the checker. -/
def pass (c : Checker) (k : Call) : Checker × Response :=
  ((c.call k).checker, respond (c.call k).reply)

/-- Handles a request. -/
def handle (c : Checker) : Request → Checker × Response
  | .dispatch opcode operand => pass c (.dispatch opcode operand)
  | .branch opcode taken => pass c (.observe opcode (.branch taken))
  | .interrupt status => pass c (.interrupt status)
  | .render => pass c .render
  | .reset => pass c .reset
  | .mnemonic opcode => (c, .text (Instruction.decode opcode).mnemonic.text)
  | .length opcode => (c, .size (Instruction.decode opcode).size)
  | .format opcode operands label =>
    match Instruction.format opcode operands label with
    | .ok s => (c, .text s)
    | .error e => (c, .failed e.message)

/-- Handles requests in order. -/
def run (c : Checker) : List Request → List Response
  | [] => []
  | r :: rs => (handle c r).2 :: run (handle c r).1 rs

/-- The responses of a new session. -/
def serve (requests : List Request) : List Response := run start requests

end Session

end TraceCheck
