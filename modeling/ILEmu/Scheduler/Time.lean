import ILEmu.Scheduler.Priority

/-! The scheduler clock: expiry of depressions, failsafe release and usage decay. -/
namespace ILEmu
open Foundation Xnu.Scheduler

/-- `sched_decay_shifts`: the fixed-point approximation of `(5/8)^ticks`. -/
def decayShifts : List (Nat × Int) :=
  [(1, 1), (1, 3), (1, -3), (2, -7), (3, 5), (3, -5), (4, -8), (5, 7),
   (5, -7), (6, -10), (7, 10), (7, -9), (8, -11), (9, 12), (9, -11), (10, -13),
   (11, 14), (11, -13), (12, -15), (13, 17), (13, -15), (14, -17), (15, 19), (16, 18),
   (16, -19), (17, 22), (18, 20), (18, -20), (19, 26), (20, 22), (20, -22), (21, -27)]

def decayUsage (usage ticks : Nat) : Nat :=
  match decayShifts[ticks]? with
  | none => 0
  | some (first, second) =>
    if 0 < second then usage >>> first + usage >>> second.toNat
    else usage >>> first - usage >>> (-second).toNat

/-- `sched_timebase_init()`: the first shift that brings the scaled interval down
to the default base priority. Sixty-four halvings empty any 64-bit value. -/
def shiftToBase : Nat → Nat → Nat
  | 0, _ => 0
  | fuel + 1, scaled =>
    if defaultBasePriority.toNat < scaled then shiftToBase fuel (scaled / 2) + 1 else 0

def priorityUsageShiftFor (schedulerTickTicks : Nat) : Nat :=
  shiftToBase 64
    ((schedulerTickTicks / 3 * 5 + schedulerTickTicks % 3 * 5 / 3) % 2 ^ 64)

namespace XnuScheduler

/-- `while (!order.empty() && order.begin()->first <= elapsed_ticks_)`. Every
iteration removes the first element, so the size of the order bounds the loop. -/
def expireDepressionsLoop : Nat → XnuScheduler → Checked XnuScheduler
  | 0, s => .ok s
  | fuel + 1, s =>
    match first s.depressionOrder with
    | none => .ok s
    | some entry =>
      let (deadline, thread) := ofLex entry
      if deadline ≤ s.elapsedTicks then
        let stale := { s with depressionOrder := s.depressionOrder.erase entry }
        match s.threads.lookup thread with
        | none => expireDepressionsLoop fuel stale
        | some record =>
          if record.info.depressed ∧ record.depressionDeadline = some deadline then do
            let (s, record) ← s.restoreDepression record
            expireDepressionsLoop fuel (s.store record)
          else expireDepressionsLoop fuel stale
      else .ok s

def expireDepressions (s : XnuScheduler) : Checked XnuScheduler :=
  s.expireDepressionsLoop s.depressionOrder.card

def releaseFailsafesLoop : Nat → XnuScheduler → Checked XnuScheduler
  | 0, s => .ok s
  | fuel + 1, s =>
    match first s.failsafeOrder with
    | none => .ok s
    | some entry =>
      let (releaseTick, thread) := ofLex entry
      if releaseTick ≤ s.schedulerTick then
        let stale := { s with failsafeOrder := s.failsafeOrder.erase entry }
        match s.threads.lookup thread with
        | none => releaseFailsafesLoop fuel stale
        | some record =>
          if record.info.failsafe ∧ record.info.failsafeReleaseTick = releaseTick then do
            let (s, record) ← s.releaseFailsafe record
            releaseFailsafesLoop fuel (s.store record)
          else releaseFailsafesLoop fuel stale
      else .ok s

def trackUsage (s : XnuScheduler) (record : ThreadRecord) : XnuScheduler × ThreadRecord :=
  if record.usageIndex.isSome then (s, record)
  else
    ({ s with usageRecords := s.usageRecords ++ [record.id] },
      { record with usageIndex := some s.usageRecords.length })

/-- Swap-remove from the usage index; the record moved into the hole is renumbered. -/
def untrackUsage (s : XnuScheduler) (record : ThreadRecord) :
    Checked (XnuScheduler × ThreadRecord) :=
  match record.usageIndex with
  | none => .ok (s, record)
  | some index =>
    match s.usageRecords.getLast? with
    | none => .error .dangling
    | some last =>
      let shorter := { s with usageRecords := (s.usageRecords.set index last).dropLast }
      if last = record.id then .ok (shorter, { record with usageIndex := none })
      else
        match s.threads.lookup last with
        | none => .error .dangling
        | some moved =>
          .ok ({ shorter with
              threads := s.threads.insert last { moved with usageIndex := some index } },
            { record with usageIndex := none })

/-- Decay one record and recompute the priority that its usage imposes. -/
def ageRecord (s : XnuScheduler) (record : ThreadRecord) (elapsedTicks : Nat) :
    Checked (XnuScheduler × ThreadRecord) :=
  s.recomputePriority { record with
    priorityUsageShift := s.processorSetPriorityShift record
    info.schedulingUsage := decayUsage record.info.schedulingUsage elapsedTicks
    info.cpuUsage := decayUsage record.info.cpuUsage elapsedTicks
    info.schedulerStamp := s.schedulerTick }

/-- The index either advances or the list shrinks, so its length bounds the loop. -/
def ageUsageLoop (elapsedTicks : Nat) : Nat → Nat → XnuScheduler → Checked XnuScheduler
  | 0, _, s => .ok s
  | fuel + 1, index, s =>
    match s.usageRecords[index]? with
    | none => .ok s
    | some thread =>
      match s.threads.lookup thread with
      | none => .error .dangling
      | some record => do
        let (s, record) ← s.ageRecord record elapsedTicks
        if ¬record.executionPending ∧ record.info.cpuUsage = 0 ∧
            record.info.schedulingUsage = 0 then do
          let (s, record) ← s.untrackUsage record
          ageUsageLoop elapsedTicks fuel index (s.store record)
        else ageUsageLoop elapsedTicks fuel (index + 1) (s.store record)

def agePriorities (s : XnuScheduler) (elapsedTicks : Nat) : Checked XnuScheduler := do
  let s ← s.releaseFailsafesLoop s.failsafeOrder.card
  ageUsageLoop elapsedTicks s.usageRecords.length 0 s

def advanceSchedulerTime (s : XnuScheduler) (consumedTicks : Nat) : Checked XnuScheduler := do
  let s := { s with elapsedTicks := saturatingAdd s.elapsedTicks consumedTicks }
  let s := if s.externalRealtimeClock then s else { s with realtimeClockTicks := s.elapsedTicks }
  let s ← s.expireDepressions
  let since := saturatingAdd s.elapsedSinceSchedulerTick consumedTicks
  let elapsedTicks := since / s.schedulerTickTicks
  let s := { s with elapsedSinceSchedulerTick := since % s.schedulerTickTicks }
  if elapsedTicks = 0 then return s
  else
    let s := { s with schedulerTick := saturatingAdd s.schedulerTick elapsedTicks }
    s.agePriorities elapsedTicks

def synchronizeTime (s : XnuScheduler) (elapsedTicks : Nat) : Checked XnuScheduler :=
  if elapsedTicks ≤ s.elapsedTicks then .ok s
  else s.advanceSchedulerTime (elapsedTicks - s.elapsedTicks)

def setRealtimeClockTicks (s : XnuScheduler) (elapsedTicks : Nat) : XnuScheduler :=
  { s with
    externalRealtimeClock := true
    realtimeClockTicks := max s.realtimeClockTicks elapsedTicks }

end XnuScheduler
end ILEmu
