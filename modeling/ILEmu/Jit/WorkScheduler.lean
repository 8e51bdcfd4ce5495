import ILEmu.Jit.WorkPolicy

/-! The plan of translation work: five passes over the candidates that share one pool of lanes. -/
namespace ILEmu.Jit

inductive JitScheduledTarget where
  | nativeCode | portableIr
  deriving DecidableEq, Repr

/-- What is known of a guest runtime. Workers are counted without a bound. -/
structure JitWorkCandidate where
  identity : BitVec 64
  exited : Bool := false
  imageActivationPending : Bool := false
  foregroundTransitionDestination : Bool := false
  activeClient : Bool := false
  scanoutOwner : Bool := false
  guestRunnable : Bool := false
  activeNativeWorkers : Nat := 0
  activePortableWorkers : Nat := 0
  workerCapacity : Nat := 0
  nativePhasePriority : Option Nat := none
  portablePhasePriority : Option Nat := none
  deriving DecidableEq, Repr

inductive JitWorkScheduleSkip where
  | noCandidate | workerBusy | noWork | memoryPressure | displayBusy | guestBusy
  | deadlineReserve | zeroBudget
  deriving DecidableEq, Repr

structure JitScheduledWork where
  candidateIdentity : BitVec 64
  workClass : JitWorkClass
  target : JitScheduledTarget
  phasePriority : Nat
  decision : JitWorkDecision
  deriving DecidableEq, Repr

structure JitWorkScheduleRequest where
  candidates : List JitWorkCandidate
  observation : JitWorkObservation := {}
  interactiveNativeEnabled : Bool := true
  activationPortableEnabled : Bool := true
  predictiveNativeEnabled : Bool := true
  offlinePortableEnabled : Bool := false
  maximumTranslationLanes : Nat := 1
  deriving DecidableEq, Repr

def maximumEntries : Nat := JitWorkPolicy.maximumTranslationLanes

/-- The entries that are planned, the counts of what is not, and the lanes that are left. -/
structure JitWorkSchedule where
  entries : List JitScheduledWork := []
  skipped : JitWorkScheduleSkip → Nat := fun _ => 0
  availableLanes : Nat := 0

def JitWorkCandidate.activeWorkerCount (candidate : JitWorkCandidate) : Nat :=
  candidate.activeNativeWorkers + candidate.activePortableWorkers

def JitWorkCandidate.interactiveRole (candidate : JitWorkCandidate) : Bool :=
  candidate.foregroundTransitionDestination || candidate.activeClient || candidate.scanoutOwner

def skipFor : JitWorkBlockReason → JitWorkScheduleSkip
  | .memoryPressure => .memoryPressure
  | .displayBusy => .displayBusy
  | .guestBusy => .guestBusy
  | .deadlineReserve => .deadlineReserve
  | .none | .zeroBudget => .zeroBudget

namespace JitWorkSchedule

def noteSkip (schedule : JitWorkSchedule) (reason : JitWorkScheduleSkip) : JitWorkSchedule :=
  { schedule with skipped := Function.update schedule.skipped reason (schedule.skipped reason + 1) }

def plannedWorkerCount (schedule : JitWorkSchedule) (identity : BitVec 64) : Nat :=
  schedule.entries.countP (·.candidateIdentity = identity)

def plannedNativeCount (schedule : JitWorkSchedule) (identity : BitVec 64) : Nat :=
  schedule.entries.countP fun entry =>
    entry.candidateIdentity = identity && entry.target = .nativeCode

def alreadyScheduled (schedule : JitWorkSchedule) (identity : BitVec 64) : Bool :=
  schedule.entries.any (·.candidateIdentity = identity)

end JitWorkSchedule

/-- What a class of work translates to, and the phase of the candidate that it works on. -/
def selectedWork (request : JitWorkScheduleRequest) (candidate : JitWorkCandidate) :
    JitWorkClass → JitScheduledTarget × Option Nat
  | .predictiveNative =>
    (.nativeCode, if request.predictiveNativeEnabled then candidate.nativePhasePriority else none)
  | .activationPortable =>
    (.portableIr,
      if request.activationPortableEnabled then candidate.portablePhasePriority else none)
  | .offlinePortable =>
    if request.offlinePortableEnabled then (.portableIr, candidate.portablePhasePriority)
    else (.nativeCode, none)
  | .activationNative | .interactiveNative =>
    (.nativeCode, if request.interactiveNativeEnabled then candidate.nativePhasePriority else none)

def JitWorkClass.exclusivelyIdle (workClass : JitWorkClass) : Bool :=
  workClass = .predictiveNative || workClass = .offlinePortable

/-- Portable activation takes all that a candidate has room for. -/
def desiredLanes (workClass : JitWorkClass) (candidateAvailable : Nat) : Nat :=
  if workClass = .activationPortable then candidateAvailable else 1

/-- The lanes that a candidate is given and the work for each, or why it is given none. -/
def admission (request : JitWorkScheduleRequest) (schedule : JitWorkSchedule)
    (candidate : JitWorkCandidate) (workClass : JitWorkClass) :
    Except JitWorkScheduleSkip (Nat × JitScheduledWork) :=
  let capacity := min candidate.workerCapacity JitWorkPolicy.maximumTranslationLanes
  let active := candidate.activeWorkerCount + schedule.plannedWorkerCount candidate.identity
  if capacity = 0 ∨ capacity ≤ active ∨ schedule.availableLanes = 0 then .error .workerBusy
  else
    let (target, phase) := selectedWork request candidate workClass
    match phase with
    | none => .error .noWork
    | some phasePriority =>
      if target = .nativeCode ∧ candidate.guestRunnable ∧ ¬candidate.imageActivationPending ∧
          workClass ≠ .interactiveNative then .error .guestBusy
      else
        let decision := JitWorkPolicy.decide workClass request.observation
        if ¬decision.admits then .error (skipFor decision.blockedBy)
        else if target = .nativeCode ∧
            candidate.activeNativeWorkers + schedule.plannedNativeCount candidate.identity ≠ 0 then
          .error .workerBusy
        else if workClass.exclusivelyIdle ∧ active ≠ 0 then .error .workerBusy
        else
          let admitted :=
            min (min (desiredLanes workClass (capacity - active)) schedule.availableLanes)
              (maximumEntries - schedule.entries.length)
          if admitted = 0 then .error .workerBusy
          else
            .ok (admitted,
              { candidateIdentity := candidate.identity, workClass, target, phasePriority, decision })

def admitWork (request : JitWorkScheduleRequest) (schedule : JitWorkSchedule)
    (candidate : Option JitWorkCandidate) (workClass : JitWorkClass) : JitWorkSchedule :=
  match candidate.filter (!·.exited) with
  | none => schedule
  | some candidate =>
    match admission request schedule candidate workClass with
    | .error reason => schedule.noteSkip reason
    | .ok (lanes, work) =>
      { schedule with
        entries := schedule.entries ++ List.replicate lanes work
        availableLanes := schedule.availableLanes - lanes }

/-- The first candidate of the lowest phase, and whether one was passed over for its workers. -/
def selectIdle (schedule : JitWorkSchedule) (suits : JitWorkCandidate → Bool)
    (phase : JitWorkCandidate → Option Nat) (candidates : List JitWorkCandidate) :
    Option JitWorkCandidate × Bool :=
  candidates.foldl
    (fun (selected, busy) candidate =>
      if candidate.exited || candidate.interactiveRole || !suits candidate ||
          schedule.alreadyScheduled candidate.identity then (selected, busy)
      else if candidate.activeWorkerCount ≠ 0 then (selected, true)
      else
        match phase candidate, selected.bind phase with
        | none, _ => (selected, busy)
        | some _, none => (some candidate, busy)
        | some priority, some best =>
          (if priority < best then some candidate else selected, busy))
    (none, false)

namespace JitWorkScheduleRequest

def laneLimit (request : JitWorkScheduleRequest) : Nat :=
  min request.maximumTranslationLanes maximumEntries

def occupiedLanes (request : JitWorkScheduleRequest) : Nat :=
  (request.candidates.map fun candidate =>
    min candidate.activeWorkerCount candidate.workerCapacity).sum

def activeCandidate (request : JitWorkScheduleRequest) : Option JitWorkCandidate :=
  (request.candidates.find? (·.imageActivationPending)).or
    (request.candidates.find? (·.activeClient))

def scanout (request : JitWorkScheduleRequest) : Option JitWorkCandidate :=
  request.candidates.find? (·.scanoutOwner)

/-- The passes for the candidates that interact. -/
def scheduleInteractive (request : JitWorkScheduleRequest) (schedule : JitWorkSchedule) :
    JitWorkSchedule :=
  let active := request.activeCandidate
  let activating := active.any (·.imageActivationPending)
  let schedule := admitWork request schedule active
    (if activating then .activationNative else .interactiveNative)
  let schedule := if activating then admitWork request schedule active .activationPortable else schedule
  match request.scanout with
  | none => schedule
  | some scanout =>
    if active.all (scanout.identity ≠ ·.identity) then
      admitWork request schedule (some scanout) .interactiveNative
    else schedule

def schedulePredictive (request : JitWorkScheduleRequest) (schedule : JitWorkSchedule) :
    JitWorkSchedule :=
  if request.predictiveNativeEnabled then
    let (predictive, busy) := selectIdle schedule (!·.guestRunnable) (·.nativePhasePriority)
      request.candidates
    if predictive.isSome then admitWork request schedule predictive .predictiveNative
    else if request.activeCandidate.isNone && request.scanout.isNone then
      schedule.noteSkip (if busy then .workerBusy else .noCandidate)
    else schedule
  else schedule

def scheduleOffline (request : JitWorkScheduleRequest) (schedule : JitWorkSchedule) :
    JitWorkSchedule :=
  if request.offlinePortableEnabled then
    let (offline, busy) := selectIdle schedule (fun _ => true) (·.portablePhasePriority)
      request.candidates
    if offline.isSome then admitWork request schedule offline .offlinePortable
    else schedule.noteSkip (if busy then .workerBusy else .noCandidate)
  else schedule

def schedule (request : JitWorkScheduleRequest) : JitWorkSchedule :=
  if request.candidates.any (·.foregroundTransitionDestination) then
    ({} : JitWorkSchedule).noteSkip .guestBusy
  else
    let idle : JitWorkSchedule := { availableLanes := request.laneLimit - request.occupiedLanes }
    request.scheduleOffline (request.schedulePredictive (request.scheduleInteractive idle))

end JitWorkScheduleRequest
end ILEmu.Jit
