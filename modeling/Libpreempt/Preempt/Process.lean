import Libpreempt.Base.String
import Libpreempt.Transition.Machine

/-! The CPU latency requests of `preempt/process.h` under Linux. A request is in
force from the `open` of `/dev/cpu_dma_latency` until its descriptor is closed;
one global variable holds the descriptor. -/

set_option autoImplicit false

namespace Libpreempt.Preempt

open Libpreempt.Base Libpreempt.Transition

structure LatencyRequest where
  fd : Int
  -- `none` before the `write`
  cState : Option UInt32
  deriving DecidableEq, Repr

/-- `inForce` is the kernel's side. `exited` is the text given to `perror`
before `std::exit(EXIT_FAILURE)`. -/
structure Process where
  gFdCpuDma : Int := -1
  inForce : List LatencyRequest := []
  exited : Option StdString := none
  deriving DecidableEq, Repr

/-- The results of the system calls; `openFd` is `-1` or the new descriptor. -/
structure SystemCalls where
  stat : Int
  openFd : Int
  write : Int
  close : Int
  deriving DecidableEq, Repr

def SystemCalls.Succeed (calls : SystemCalls) : Prop :=
  calls.stat ≠ -1 ∧ calls.openFd ≠ -1 ∧ 1 ≤ calls.write

namespace Process

/-- The result of `close` is not looked at; the kernel releases the descriptor
whatever it reports. -/
def resetCPULatency (process : Process) (_close : Int) : Process :=
  if process.gFdCpuDma ≠ -1 then
    { process with
      inForce := process.inForce.filter fun request => request.fd ≠ process.gFdCpuDma
      gFdCpuDma := -1 }
  else process

def requestCPULatency (process : Process) (cState : UInt32) (calls : SystemCalls) : Process :=
  if calls.stat = -1 then
    { process with exited := some "stat /dev/cpu_dma_latency)".toList }
  else
    let process := { process with gFdCpuDma := calls.openFd }
    if calls.openFd = -1 then
      { process with exited := some "open /dev/cpu_dma_latency".toList }
    else if calls.write < 1 then
      let opened := { process with inForce := ⟨calls.openFd, none⟩ :: process.inForce }
      { opened.resetCPULatency calls.close with exited := some "write /dev/cpu_dma_latency".toList }
    else { process with inForce := ⟨calls.openFd, some cState⟩ :: process.inForce }

inductive Call where
  | request (cState : UInt32) (calls : SystemCalls)
  | reset (close : Int)
  deriving DecidableEq, Repr

/-- `open` fails or returns a descriptor that is not open. -/
def Fresh (process : Process) (calls : SystemCalls) : Prop :=
  calls.openFd = -1 ∨
    0 ≤ calls.openFd ∧ ∀ request ∈ process.inForce, request.fd ≠ calls.openFd

instance (process : Process) (calls : SystemCalls) : Decidable (process.Fresh calls) :=
  inferInstanceAs (Decidable (_ ∨ _))

def perform (process : Process) : Call → Option Process
  | .request cState calls =>
      if process.Fresh calls then some (process.requestCPULatency cState calls) else none
  | .reset close => some (process.resetCPULatency close)

def machine : Machine Process Call where
  initial := {}
  step process call := if process.exited = none then process.perform call else none

/-- The global variable accounts for every open descriptor, so nothing remains
in force after a reset. -/
def LatencyLaw (_ : Process) (call : Call) (after : Process) : Prop :=
  after.exited = none →
    (after.inForce.length = if after.gFdCpuDma ≠ -1 then 1 else 0) ∧
      ∀ close, call = .reset close → after.inForce = []

def LatencyGuard (process : Process) : Call → Prop
  | .request _ calls => calls.Succeed → process.gFdCpuDma = -1
  | .reset _ => True

end Process

end Libpreempt.Preempt
