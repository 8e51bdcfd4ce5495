import Mathlib.Tactic.Common
import Mathlib.Algebra.Order.Group.Int

/-! Thread and task quality-of-service policies and the priority they impose. -/
namespace ILEmu

/-- Ordered internal tiers. -/
inductive XnuQosTier where
  | unspecified | maintenance | background | utility | default | userInitiated | userInteractive
  deriving DecidableEq, Repr

namespace XnuQosTier

def rank (tier : XnuQosTier) : Nat := tier.ctorIdx

def max (left right : XnuQosTier) : XnuQosTier := if left.rank < right.rank then right else left

def min (left right : XnuQosTier) : XnuQosTier := if right.rank < left.rank then right else left

/-- The class base priorities. -/
def base : XnuQosTier → Int
  | unspecified => 0
  | maintenance => 4
  | background => 4
  | utility => 20
  | default => 31
  | userInitiated => 37
  | userInteractive => 46

/-- The base of the tier below, the floor that relative priorities scale towards. -/
def lower : XnuQosTier → Int
  | unspecified => unspecified.base
  | maintenance => unspecified.base
  | background => 0
  | utility => background.base
  | default => utility.base
  | userInitiated => default.base
  | userInteractive => userInitiated.base

end XnuQosTier

structure XnuThreadQosPolicy where
  tier : XnuQosTier := .unspecified
  relativePriority : Int := 0
  deriving DecidableEq, Repr

namespace XnuThreadQosPolicy

def valid (policy : XnuThreadQosPolicy) : Bool :=
  policy.relativePriority ≤ 0 && -15 ≤ policy.relativePriority &&
    (policy.tier != .unspecified || policy.relativePriority == 0)

def priority (policy : XnuThreadQosPolicy) : Int :=
  policy.tier.base - ((policy.tier.base - policy.tier.lower) * -policy.relativePriority) >>> (4 : Nat)

end XnuThreadQosPolicy

structure XnuTaskQosPolicy where
  ceiling : XnuQosTier := .unspecified
  clamp : XnuQosTier := .unspecified
  urgentUi : Bool := false
  background : Bool := false
  deriving DecidableEq, Repr

namespace XnuTaskQosPolicy

/-- The tier whose class base a donation carries, the highest first. -/
def donatedTier (donation : Int) : Option XnuQosTier :=
  [.userInteractive, .userInitiated, .default, .utility, .background, .maintenance].find?
    fun value => XnuThreadQosPolicy.priority { tier := value } = donation

def effectiveTier (policy : XnuTaskQosPolicy) (requested : XnuThreadQosPolicy)
    (donation : Option Int) : XnuQosTier :=
  let tier := requested.tier
  let tier := match donation with
    | some value =>
      if tier ≠ .unspecified then
        match donatedTier value with
        | some donated => tier.max donated
        | none => tier
      else tier
    | none => tier
  let tier :=
    if policy.clamp ≠ .unspecified then
      if tier = .unspecified then policy.clamp else tier.min policy.clamp
    else tier
  let tier :=
    if policy.ceiling ≠ .unspecified ∧ tier ≠ .unspecified then tier.min policy.ceiling else tier
  -- the background state applies after ceilings, and to threads without a class too
  if policy.background ∧ (tier = .unspecified ∨ XnuQosTier.background.rank < tier.rank) then
    .background
  else tier

def effectivePriority (policy : XnuTaskQosPolicy) (requested : XnuThreadQosPolicy)
    (legacy : Int) (donation : Option Int) : Int :=
  let tier := policy.effectiveTier requested donation
  if tier = .unspecified then legacy
  else
    let relative :=
      if tier = requested.tier ∧ donation.isNone then requested.relativePriority else 0
    XnuThreadQosPolicy.priority { tier, relativePriority := relative } +
      (if tier = .userInteractive ∧ policy.urgentUi then 1 else 0)

end XnuTaskQosPolicy

theorem XnuThreadQosPolicy.priority_range {policy : XnuThreadQosPolicy}
    (valid : policy.valid = true) : 0 ≤ policy.priority ∧ policy.priority ≤ 46 := by
  obtain ⟨tier, relative⟩ := policy
  simp only [XnuThreadQosPolicy.valid, Bool.and_eq_true, decide_eq_true_eq] at valid
  obtain ⟨⟨upper, lower⟩, _⟩ := valid
  simp only [XnuThreadQosPolicy.priority, Int.shiftRight_eq_div_pow]
  cases tier <;> simp only [XnuQosTier.base, XnuQosTier.lower] <;> omega

/-- A class priority never leaves the user band; a thread without a class keeps its base. -/
theorem XnuTaskQosPolicy.effectivePriority_range (policy : XnuTaskQosPolicy)
    {requested : XnuThreadQosPolicy} {legacy : Int} (donation : Option Int)
    (valid : requested.valid = true) (nonneg : 0 ≤ legacy) :
    0 ≤ policy.effectivePriority requested legacy donation ∧
      (policy.effectivePriority requested legacy donation ≤ legacy ∨
        policy.effectivePriority requested legacy donation ≤ 47) := by
  unfold XnuTaskQosPolicy.effectivePriority
  simp only
  generalize policy.effectiveTier requested donation = tier
  split
  · exact ⟨nonneg, .inl (Int.le_refl _)⟩
  · rename_i classed
    have scaled : XnuThreadQosPolicy.valid
        { tier, relativePriority :=
            if tier = requested.tier ∧ donation.isNone then requested.relativePriority else 0 } := by
      simp only [XnuThreadQosPolicy.valid, Bool.and_eq_true, decide_eq_true_eq, Bool.or_eq_true,
        bne_iff_ne] at valid ⊢
      refine ⟨?_, .inl classed⟩
      split
      · exact valid.1
      · decide
    have range := XnuThreadQosPolicy.priority_range scaled
    have urgent : (0 : Int) ≤ (if tier = .userInteractive ∧ policy.urgentUi then 1 else 0) ∧
        (if tier = .userInteractive ∧ policy.urgentUi then 1 else 0) ≤ (1 : Int) := by
      split <;> decide
    omega

end ILEmu
