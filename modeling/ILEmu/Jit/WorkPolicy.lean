import ILEmu.Scheduler.Types

/-! The admission of one class of translation work, from what is observed of the host and the
guest. Durations are in nanoseconds. -/
namespace ILEmu.Jit

inductive JitWorkClass where
  | activationNative | activationPortable | interactiveNative | predictiveNative | offlinePortable
  deriving DecidableEq, Repr

inductive JitWorkBlockReason where
  | none | memoryPressure | displayBusy | guestBusy | deadlineReserve | zeroBudget
  deriving DecidableEq, Repr

structure JitWorkObservation where
  memoryPressure : Bool := false
  realtimeWorkPending : Bool := false
  displayStarted : Bool := false
  deadlineRemaining : Option Int := none
  displayQuietFor : Option Int := none
  guestIdleFor : Option Int := none
  interactionQuietFor : Option Int := none
  blockCompileP95Nanoseconds : Nat := 0
  blockCompileP99Nanoseconds : Nat := 0
  deriving DecidableEq, Repr

structure JitWorkDecision where
  budgetNanoseconds : Nat := 0
  maximumBlocks : Nat := 0
  blockedBy : JitWorkBlockReason := .zeroBudget
  deriving DecidableEq, Repr

def JitWorkDecision.admits (decision : JitWorkDecision) : Bool :=
  decision.budgetNanoseconds ≠ 0 && decision.maximumBlocks ≠ 0

namespace JitWorkPolicy

def maximumTranslationLanes : Nat := 4
def activationBudgetNanoseconds : Nat := 8000000
def activationPortableBudgetNanoseconds : Nat := 8000000
def interactiveBudgetNanoseconds : Nat := 1000000
def predictiveBudgetNanoseconds : Nat := 2000000
def offlineBudgetNanoseconds : Nat := 500000
def minimumUsefulBudgetNanoseconds : Nat := 100000
def interactiveReserveFloorNanoseconds : Nat := 500000
def compileReserveMarginNanoseconds : Nat := 250000
def offlineReserveFloorNanoseconds : Nat := 20000000
def offlineDisplayQuiet : Int := 100000000
def offlineGuestQuiet : Int := 20000000
def interactiveNativeQuietPeriod : Int := 1000000000
def activationBlockLimit : Nat := 256
def interactiveBlockLimit : Nat := 32
def predictiveBlockLimit : Nat := 64
def offlineBlockLimit : Nat := 16

/-- The limits of a class of work. -/
structure Limits where
  maximumBudget : Nat
  deadlineReserve : Nat
  maximumBlocks : Nat
  deadlineBudgetDivisor : Nat := 1

def blocked (reason : JitWorkBlockReason) : JitWorkDecision := { blockedBy := reason }

def quiet (quietFor : Option Int) (period : Int) : Bool := quietFor.any (period ≤ ·)

def limits (work : JitWorkClass) (observation : JitWorkObservation) :
    Except JitWorkBlockReason Limits :=
  let historicalBlock :=
    max observation.blockCompileP95Nanoseconds observation.blockCompileP99Nanoseconds
  let reserve (floor : Nat) := max floor (saturatingAdd historicalBlock compileReserveMarginNanoseconds)
  match work with
  | .activationNative =>
    .ok { maximumBudget := activationBudgetNanoseconds
          deadlineReserve := reserve interactiveReserveFloorNanoseconds
          maximumBlocks := activationBlockLimit
          deadlineBudgetDivisor := 2 }
  | .interactiveNative =>
    if observation.realtimeWorkPending ||
        !quiet observation.interactionQuietFor interactiveNativeQuietPeriod then
      .error .guestBusy
    else
      .ok { maximumBudget := interactiveBudgetNanoseconds
            deadlineReserve := reserve interactiveReserveFloorNanoseconds
            maximumBlocks := interactiveBlockLimit
            deadlineBudgetDivisor := 4 }
  | .activationPortable =>
    .ok { maximumBudget := activationPortableBudgetNanoseconds
          deadlineReserve := reserve interactiveReserveFloorNanoseconds
          maximumBlocks := activationBlockLimit
          deadlineBudgetDivisor := 2 }
  | .predictiveNative =>
    .ok { maximumBudget := predictiveBudgetNanoseconds
          deadlineReserve := reserve interactiveReserveFloorNanoseconds
          maximumBlocks := predictiveBlockLimit
          deadlineBudgetDivisor := 4 }
  | .offlinePortable =>
    if !observation.displayStarted || !quiet observation.displayQuietFor offlineDisplayQuiet then
      .error .displayBusy
    else if observation.deadlineRemaining.isNone &&
        !quiet observation.guestIdleFor offlineGuestQuiet then
      .error .guestBusy
    else
      .ok { maximumBudget := offlineBudgetNanoseconds
            deadlineReserve := reserve offlineReserveFloorNanoseconds
            maximumBlocks := offlineBlockLimit }

def decide (work : JitWorkClass) (observation : JitWorkObservation) : JitWorkDecision :=
  if observation.memoryPressure then blocked .memoryPressure
  else
    match limits work observation with
    | .error reason => blocked reason
    | .ok limits =>
      let budgeted (budget : Nat) : JitWorkDecision :=
        if budget < minimumUsefulBudgetNanoseconds then blocked .zeroBudget
        else
          { budgetNanoseconds := budget, maximumBlocks := limits.maximumBlocks, blockedBy := .none }
      match observation.deadlineRemaining with
      | none => budgeted limits.maximumBudget
      | some deadline =>
        let remaining := deadline.toNat
        if remaining ≤ limits.deadlineReserve then blocked .deadlineReserve
        else
          budgeted (min limits.maximumBudget
            ((remaining - limits.deadlineReserve) / limits.deadlineBudgetDivisor))

end JitWorkPolicy
end ILEmu.Jit
