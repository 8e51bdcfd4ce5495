import ILEmu.Scheduler.Threads

/-! Priority, quality-of-service, binding and realtime policy of a thread. -/
namespace ILEmu
open Foundation Xnu.Scheduler
namespace XnuScheduler

def setBasePriority (s : XnuScheduler) (thread : XnuThreadId) (priority : Int) :
    Checked (XnuScheduler × Bool) :=
  match s.threads.lookup thread with
  | none => .ok (s, false)
  | some record => do
    let clamped := clampPriority priority
    let previousQos := record.info.requestedQos
    let record := { record with info.requestedQos := {}, legacyBasePriority := clamped }
    if record.info.basePriority = clamped ∧ previousQos.tier = .unspecified then
      return (s.store record, true)
    else do
      let (s, record) ← s.recomputePriority { record with info.basePriority := clamped }
      return (s.store record, true)

/-- A base relative to the task's priority, within the user band of this profile. -/
def precedencePriority (s : XnuScheduler) (taskPriority importance : Int) : Int :=
  max s.minimumUserPriority
    (min (taskPriority + max (-maximumPriority) (min importance maximumPriority))
      maximumUserPriority)

def setPrecedence (s : XnuScheduler) (thread : XnuThreadId) (taskPriority importance : Int) :
    Checked (XnuScheduler × Bool) :=
  match s.threads.lookup thread with
  | none => .ok (s, false)
  | some record =>
    let record := { record with importance }
    let priority := s.precedencePriority taskPriority importance
    let saved :=
      if record.info.failsafe then { record with failsafeSavedBasePriority := priority }
      else record
    if saved.info.failsafe ∧ saved.failsafeSavedRealtime then .ok (s.store saved, true)
    else (s.store saved).setBasePriority thread priority

def setTaskPriority (s : XnuScheduler) (thread : XnuThreadId) (priority : Int) :
    Checked (XnuScheduler × Bool) :=
  match s.threads.lookup thread with
  | none => .ok (s, false)
  | some record =>
    if record.info.requestedQos.tier = .unspecified then
      s.setPrecedence thread priority record.importance
    else
      .ok (s.store { record with
        legacyBasePriority := s.precedencePriority priority record.importance }, true)

def setTimeshare (s : XnuScheduler) (thread : XnuThreadId) (timeshare : Bool) :
    Checked (XnuScheduler × Bool) :=
  match s.threads.lookup thread with
  | none => .ok (s, false)
  | some record =>
    if record.info.failsafe then
      .ok (s.store { record with
        failsafeSavedRealtime := false, failsafeSavedTimeshare := timeshare }, true)
    else if ¬record.info.realtime ∧ record.info.timeshare = timeshare then .ok (s, true)
    else do
      let (s, record) ← s.recomputePriority { record with
        info.realtime := false
        info.timeshare := timeshare
        info.remainingQuantum := s.quantumTicks }
      return (s.store record, true)

def setLegacyPolicy (s : XnuScheduler) (thread : XnuThreadId) (timeshare : Bool)
    (taskPriority priority : Int) : Checked (XnuScheduler × Bool) :=
  match s.threads.lookup thread with
  | none => .ok (s, false)
  | some record =>
    -- legacy changes to a realtime thread are accepted and ignored, also while
    -- the scheduler failsafe has it demoted
    if record.info.realtime ∨ (record.info.failsafe ∧ record.failsafeSavedRealtime) then
      .ok (s, true)
    else do
      let base :=
        if maximumUserPriority ≤ priority then maximumUserPriority
        else max minimumPriority
          (min (priority - defaultBasePriority + taskPriority) maximumUserPriority)
      let (s, applied) ← s.setTimeshare thread timeshare
      if applied then s.setPrecedence thread taskPriority (base - taskPriority)
      else return (s, false)

def setRequestedQos (s : XnuScheduler) (thread : XnuThreadId) (policy : XnuThreadQosPolicy) :
    Checked (XnuScheduler × Bool) :=
  match s.threads.lookup thread with
  | none => .ok (s, false)
  | some record =>
    if ¬policy.valid then .ok (s, false)
    else do
      let record := { record with info.requestedQos := policy }
      let priority :=
        if policy.tier = .unspecified then record.legacyBasePriority else policy.priority
      let record :=
        if record.info.failsafe then { record with failsafeSavedBasePriority := priority }
        else { record with info.basePriority := priority }
      let (s, record) ← s.recomputePriority record
      return (s.store record, true)

def adoptTaskQos (policy : XnuTaskQosPolicy) (s : XnuScheduler) (thread : XnuThreadId) :
    Checked XnuScheduler :=
  match s.threads.lookup thread with
  | none => .error .outOfRange
  | some record => do
    let (s, record) ← s.recomputePriority { record with taskQos := policy }
    return s.store record

def setTaskQosPolicy (s : XnuScheduler) (process : Nat) (policy : XnuTaskQosPolicy)
    (order : List XnuThreadId) : Checked XnuScheduler :=
  if s.taskQosPolicies.lookup process = some policy then .ok s
  else
    let s := { s with taskQosPolicies := s.taskQosPolicies.insert process policy }
    match s.processThreads.lookup process with
    | none => .ok s
    | some owned => (iterationOrder order owned).foldlM (adoptTaskQos policy) s

def setQosOverridePriority (s : XnuScheduler) (thread : XnuThreadId) (priority : Option Int) :
    Checked (XnuScheduler × Bool) :=
  match s.threads.lookup thread with
  | none => .ok (s, false)
  | some record =>
    let priority := priority.map fun value =>
      max minimumPriority (min value maximumUserPriority)
    if record.info.qosOverridePriority = priority then .ok (s, true)
    else do
      let (s, record) ← s.recomputePriority
        { record with info.qosOverridePriority := priority }
      return (s.store record, true)

def depress (s : XnuScheduler) (thread : XnuThreadId) (durationTicks : Nat) :
    Checked (XnuScheduler × Bool) :=
  match s.threads.lookup thread with
  | none => .ok (s, false)
  | some record =>
    if record.info.depressed then .ok (s, true)
    else do
      let wasQueued := record.queued
      let (s, record) ← s.removeFromQueue record
      let record := { record with
        info.depressed := true
        info.scheduledPriority := minimumPriority
        depressionDeadline :=
          if durationTicks ≠ 0 then some (saturatingAdd s.elapsedTicks durationTicks) else none }
      let s := if durationTicks ≠ 0 then s.indexDepression record else s
      let (s, record) ← s.requeue record wasQueued
      return (s.store record, true)

def bindThread (s : XnuScheduler) (thread : XnuThreadId) (processor : Option Nat) :
    Checked (XnuScheduler × Bool) :=
  if ∃ p ∈ processor, s.processorRunQueues.length ≤ p then .ok (s, false)
  else
    match s.threads.lookup thread with
    | none => .ok (s, false)
    | some record =>
      if record.info.boundProcessor = processor then .ok (s, true)
      else do
        let wasQueued := record.queued
        let (s, record) ← s.removeFromQueue record
        let record := { record with info.boundProcessor := processor }
        let (s, record) ← s.requeue record wasQueued
        return (s.store record, true)

def setRealtime (s : XnuScheduler) (thread : XnuThreadId)
    (periodTicks computationTicks constraintTicks : Nat) (preemptible : Bool) :
    Checked (XnuScheduler × Bool) :=
  if constraintTicks < computationTicks ∨
      computationTicks < s.minimumRealtimeComputationTicks ∨
      s.maximumRealtimeComputationTicks < computationTicks then .ok (s, false)
  else
    match s.threads.lookup thread with
    | none => .ok (s, false)
    | some record =>
      let timed (record : ThreadRecord) : ThreadRecord := { record with
        info.realtimePreemptible := preemptible
        info.realtimePeriod := periodTicks
        info.realtimeComputation := computationTicks
        info.realtimeConstraint := constraintTicks
        info.realtimeDeadline := saturatingAdd s.realtimeClockTicks constraintTicks }
      if record.info.failsafe then
        .ok (s.store (timed { record with
          failsafeSavedRealtime := true, failsafeSavedTimeshare := false }), true)
      else do
        -- a queued realtime thread can change its deadline without changing priority
        let wasQueued := record.queued
        let (s, record) ← s.removeFromQueue record
        let (s, record) ← s.recomputePriority (timed { record with
          info.timeshare := false
          info.realtime := true
          info.remainingQuantum := computationTicks })
        let (s, record) ← s.requeue record wasQueued
        return (s.store record, true)

def setRealtimePolicy (s : XnuScheduler) (thread : XnuThreadId) (policy : XnuRealtimePolicy) :
    Checked (XnuScheduler × Bool) :=
  if policy.constraint < policy.computation ∨ policy.computation < 50000 ∨
      50000000 < policy.computation then .ok (s, false)
  else do
    let ticks (value : Nat) : Nat := value * s.guestTicksPerSecond / 1000000000
    let (s, applied) ← s.setRealtime thread (ticks policy.period) (ticks policy.computation)
      (ticks policy.constraint) (policy.preemptible ≠ 0)
    if applied then
      match s.threads.lookup thread with
      | none => throw .outOfRange
      | some record => return (s.store { record with realtimePolicy := policy }, true)
    else return (s, false)

end XnuScheduler
end ILEmu
