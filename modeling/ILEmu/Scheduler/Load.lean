import ILEmu.Foundation.Checked
import ILEmu.Scheduler.Qos
import Mathlib.Logic.Function.Basic

/-! Runnable load per base-priority bucket and the usage shift derived from it. -/
namespace ILEmu
open Foundation

structure SchedulerLoadProfile where
  priorityBuckets : Bool := false
  deriving DecidableEq, Repr

namespace XnuSchedulerLoad

inductive Bucket where
  | fixed | foreground | utility | background
  deriving DecidableEq, Repr

def bucket (timeshare : Bool) (basePriority : Int) : Bucket :=
  if !timeshare then .fixed
  else if XnuThreadQosPolicy.priority { tier := .utility } < basePriority then .foreground
  else if XnuThreadQosPolicy.priority { tier := .background } < basePriority then .utility
  else .background

end XnuSchedulerLoad

structure XnuSchedulerLoad where
  profile : SchedulerLoadProfile := {}
  counts : XnuSchedulerLoad.Bucket → Nat := fun _ => 0

namespace XnuSchedulerLoad

def enter (load : XnuSchedulerLoad) (bucket : Bucket) : XnuSchedulerLoad :=
  { load with counts := Function.update load.counts bucket (load.counts bucket + 1) }

def leave {ε : Type} (fault : ε) (load : XnuSchedulerLoad) (bucket : Bucket) :
    Except ε XnuSchedulerLoad := do
  let count ← decrement fault (load.counts bucket)
  return { load with counts := Function.update load.counts bucket count }

/-- `std::bit_width(load) - 1` -/
def bitWidth (value : Nat) : Nat := if value = 0 then 0 else value.log2 + 1

def countedThreads (load : XnuSchedulerLoad) (bucket : Bucket) (processors : Nat) :
    Option Nat :=
  let foreground := load.counts .foreground
  let utility := load.counts .utility
  let background := load.counts .background
  if load.profile.priorityBuckets then
    match bucket with
    | .fixed => none
    | .foreground =>
      some (foreground + min utility processors + (if background ≠ 0 then 1 else 0))
    | .utility => some (utility + (if background ≠ 0 then 1 else 0))
    | .background => some background
  else some (foreground + utility + background)

def priorityShift (load : XnuSchedulerLoad) (bucket : Bucket) (processors fixedShift : Nat) :
    Option Nat :=
  match load.countedThreads bucket processors with
  | none => none
  | some threads =>
    if threads ≤ processors then none
    else
      let shift := bitWidth (min (threads / processors) 127) - 1
      some (if shift < fixedShift then fixedShift - shift else 0)

end XnuSchedulerLoad
end ILEmu
