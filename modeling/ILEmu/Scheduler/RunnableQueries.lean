import ILEmu.Scheduler.RunQueue

/-! What the scheduler tells of its runnable threads without a change of its own. -/
namespace ILEmu
open Foundation Xnu.Scheduler
namespace XnuScheduler

def processorCount (s : XnuScheduler) : Nat := s.processorRunQueues.length

def info (s : XnuScheduler) (thread : XnuThreadId) : Option XnuThreadSchedulingInfo :=
  (s.threads.lookup thread).map (·.info)

/-- The queued threads of a process, without the excluded one. -/
def candidates (s : XnuScheduler) (process : Nat) (excluded : Option XnuThreadId) :
    List ThreadRecord :=
  ((s.processThreads.lookup process).getD []).filterMap fun thread =>
    if excluded = some thread then none else (s.threads.lookup thread).filter (·.queued)

def isOlder (candidate oldest : ThreadRecord) : Bool :=
  candidate.runnableEnqueueSequence < oldest.runnableEnqueueSequence

def outranks (candidate best : ThreadRecord) : Bool :=
  if candidate.info.scheduledPriority ≠ best.info.scheduledPriority then
    best.info.scheduledPriority < candidate.info.scheduledPriority
  else if candidate.info.realtime ≠ best.info.realtime then candidate.info.realtime
  else if candidate.info.realtime ∧
      candidate.info.realtimeDeadline ≠ best.info.realtimeDeadline then
    candidate.info.realtimeDeadline < best.info.realtimeDeadline
  else candidate.enqueueSequence < best.enqueueSequence

/-- The first record that no other one is better than. -/
def bestBy (better : ThreadRecord → ThreadRecord → Bool) (records : List ThreadRecord) :
    Option ThreadRecord :=
  records.foldl
    (fun best candidate =>
      if best.all fun record => better candidate record then some candidate else best)
    none

def highestPriorityRunnableThread (s : XnuScheduler) (process : Nat)
    (excluded : Option XnuThreadId := none) : Option XnuThreadId :=
  (bestBy outranks (s.candidates process excluded)).map (·.id)

def oldestRunnableThread (s : XnuScheduler) (process : Nat)
    (excluded : Option XnuThreadId := none) : Option XnuThreadId :=
  (bestBy isOlder (s.candidates process excluded)).map (·.id)

/-- The threads of the populated buckets of one queue. -/
def queuedIn (s : XnuScheduler) (q : RunQueue) : List ThreadRecord :=
  ((List.range runQueueCount).filter q.bitmap.test).flatMap fun priority =>
    (q.queues priority).filterMap s.threads.lookup

/-- Dense queues are scanned directly, others by their buckets. -/
def oldestRunnableThreadExcept (s : XnuScheduler) (excluded : Option XnuThreadId := none) :
    Option XnuThreadId :=
  let records :=
    if s.threads.entries.length / 2 < s.runnableCount then
      (s.threads.entries.map (·.2)).filter (·.queued)
    else (s.processorSetRunQueue :: s.processorRunQueues).flatMap s.queuedIn
  (bestBy isOlder (records.filter fun record => excluded ≠ some record.id)).map (·.id)

end XnuScheduler
end ILEmu
