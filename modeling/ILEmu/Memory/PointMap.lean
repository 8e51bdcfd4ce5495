import ILEmu.Foundation.Run
import ILEmu.Memory.VmMap

/-! The map of guest memory as a partial function on addresses, which the list of regions
represents, and which each operation changes address by address. -/
namespace ILEmu
open Foundation

abbrev PointMap := Nat → Option VmRegion

namespace PointMap

/-- What an address holds after more permissions were mapped there. -/
def joined (permissions : MemoryPermission) (attributes : VmMappingAttributes) :
    Option VmRegion → VmRegion
  | some region => { region with permissions := region.permissions ||| permissions }
  | none =>
    { permissions, inheritance := attributes.inheritance
      maximumPermissions := attributes.maximumPermissions }

/-- The addresses of a valid range. -/
def InRange (start stop a : Nat) : Prop := validRange start stop ∧ start ≤ a ∧ a < stop

instance (start stop a : Nat) : Decidable (InRange start stop a) :=
  inferInstanceAs (Decidable (_ ∧ _))

/-- The error that `protect` reports for an address. -/
def protectionFault (map : PointMap) (permissions : MemoryPermission) (copy : Bool) (a : Nat) :
    Option ProtectionError :=
  faultAt .unmapped (VmRegion.protectionFault permissions copy) map a

def Protectable (map : PointMap) (start stop : Nat) (permissions : MemoryPermission)
    (copy : Bool) : Prop :=
  validRange start stop ∧
    ∀ a, start ≤ a → a < stop → map.protectionFault permissions copy a = none

open Classical in
noncomputable def after (map : PointMap) : VmOperation → PointMap
  | .mapOr start stop permissions attributes => fun a =>
    if InRange start stop a then some (joined permissions attributes (map a)) else map a
  | .unmap start stop => fun a => if InRange start stop a then none else map a
  | .protect start stop permissions setMaximum copy => fun a =>
    if map.Protectable start stop permissions copy ∧ InRange start stop a then
      (map a).map (·.protect permissions setMaximum copy)
    else map a
  | .inherit start stop inheritance => fun a =>
    if InRange start stop a then (map a).map fun region => { region with inheritance } else map a

end PointMap

namespace VmMap
variable {map : VmMap} {start stop cursor : Nat}

def point (map : VmMap) : PointMap := valueAt map.regions

structure Sound (map : VmMap) : Prop where
  tidy : Tidy map.regions
  joined : Joined map.regions
  within : ∀ region ∈ map.regions, region.stop ≤ addressSpaceEnd

theorem sound_empty : Sound {} := ⟨Tidy.nil, List.isChain_nil, nofun⟩

/-- Regions between which the loops of the operations run. -/
structure Ready (start stop : Nat) (regions : List (Span VmRegion)) : Prop where
  tidy : Tidy regions
  within : ∀ region ∈ regions, region.stop ≤ addressSpaceEnd
  first : Uncut start regions
  last : Uncut stop regions

theorem splitAt_cut (tidy : Tidy map.regions)
    (within : ∀ region ∈ map.regions, region.stop ≤ addressSpaceEnd) (point : Nat) :
    Cut point map.regions (map.splitAt point).regions := by
  have unchanged (uncut : Uncut point map.regions) : Cut point map.regions map.regions :=
    ⟨tidy, fun _ => rfl, uncut, fun _ same => same, fun _ same => same⟩
  unfold splitAt
  split
  · rename_i outside
    apply unchanged
    intro region member before
    rcases outside with rfl | beyond | none
    · contradiction
    · exact (within region member).trans beyond
    · rw [none] at member
      contradiction
  · exact tidy.cutAt point

theorem Sound.split (sound : map.Sound) (start stop : Nat) :
    Ready start stop ((map.splitAt start).splitAt stop).regions ∧
      ∀ a, valueAt ((map.splitAt start).splitAt stop).regions a = map.point a := by
  have first := splitAt_cut sound.tidy sound.within start
  have within := first.within addressSpaceEnd sound.within
  have second := splitAt_cut first.tidy within stop
  refine ⟨⟨second.tidy, second.within addressSpaceEnd within, ?_, second.uncut⟩, fun a => ?_⟩
  · exact second.others start first.uncut
  · rw [second.same, first.same]
    rfl

theorem Sound.coalesce {regions : List (Span VmRegion)} (tidy : Tidy regions)
    (within : ∀ region ∈ regions, region.stop ≤ addressSpaceEnd) :
    (VmMap.coalesce { regions }).Sound ∧
      ∀ a, (VmMap.coalesce { regions }).point a = valueAt regions a := by
  have coalesced := tidy.coalesce
  exact ⟨⟨coalesced.tidy, coalesced.joined, coalesced.within addressSpaceEnd within⟩,
    coalesced.same⟩

section fill
variable {regions : List (Span VmRegion)}

/-- A gap is filled up to the next region, or to the stop. -/
theorem Ready.gap {gapEnd : Nat} (ready : Ready cursor stop regions) (more : cursor < gapEnd)
    (limit : gapEnd ≤ stop) (bound : stop ≤ addressSpaceEnd)
    (next : ∀ region ∈ regions, cursor ≤ region.start → gapEnd ≤ region.start)
    (value : VmRegion) :
    Ready gapEnd stop (emplace { start := cursor, stop := gapEnd, value } regions) ∧
      (∀ a, valueAt (emplace { start := cursor, stop := gapEnd, value } regions) a =
        if cursor ≤ a ∧ a < gapEnd then some value else valueAt regions a) ∧
      ∀ a, cursor ≤ a → a < gapEnd → valueAt regions a = none := by
  obtain ⟨tidy, within, first, last⟩ := ready
  have clear : ∀ region ∈ regions, region.stop ≤ cursor ∨ gapEnd ≤ region.start := by
    intro region member
    by_cases early : region.start < cursor
    · exact .inl (first region member early)
    · exact .inr (next region member (Nat.not_lt.mp early))
  have fresh : ∀ region ∈ regions, region.start ≠ cursor := by
    intro region member
    have wide := tidy.busy region member
    rcases clear region member with before | behind <;> omega
  let new : Span VmRegion := { start := cursor, stop := gapEnd, value }
  have members : ∀ region, region ∈ emplace new regions ↔ region = new ∨ region ∈ regions :=
    fun region => mem_emplace fresh
  refine ⟨⟨tidy.emplace more clear, ?_, ?_, ?_⟩, valueAt_emplace tidy more clear, ?_⟩
  · intro region member
    rcases (members region).mp member with rfl | old
    · exact limit.trans bound
    · exact within region old
  · intro region member before
    rcases (members region).mp member with rfl | old
    · exact Nat.le_refl _
    · rcases clear region old with ended | behind <;> omega
  · intro region member before
    rcases (members region).mp member with rfl | old
    · exact limit
    · exact last region old before
  · intro a low high
    apply valueAt_eq_none.mpr
    rintro region member ⟨begun, unended⟩
    rcases clear region member with ended | behind <;> omega

/-- A region that is there is joined with the permissions that are mapped. -/
theorem Ready.join {before after : List (Span VmRegion)} {region : Span VmRegion}
    (ready : Ready region.start stop (before ++ region :: after)) (value : VmRegion) :
    Ready region.stop stop (before ++ { region with value } :: after) ∧
      ∀ a, valueAt (before ++ { region with value } :: after) a =
        if region.Contains a then some value else valueAt (before ++ region :: after) a := by
  obtain ⟨tidy, within, first, last⟩ := ready
  have busy := tidy.busy region (by simp)
  have origin : ∀ t ∈ before ++ { region with value } :: after,
      ∃ u ∈ before ++ region :: after, u.start = t.start ∧ u.stop = t.stop := by
    intro t member
    simp only [List.mem_append, List.mem_cons] at member
    rcases member with early | rfl | late
    · exact ⟨t, by simp [early], rfl, rfl⟩
    · exact ⟨region, by simp, rfl, rfl⟩
    · exact ⟨t, by simp [late], rfl, rfl⟩
  refine ⟨⟨tidy.replace rfl busy (Nat.le_refl _), ?_, ?_, ?_⟩, tidy.valueAt_replace rfl rfl⟩
  · intro t member
    obtain ⟨u, old, _, same⟩ := origin t member
    exact same ▸ within u old
  · intro t member early
    obtain ⟨u, old, same, same'⟩ := origin t member
    rw [← same] at early
    rw [← same']
    rcases Nat.lt_trichotomy u.start region.start with below | equal | above
    · exact (first u old below).trans busy.le
    · rw [eq_of_start tidy.sorted old (by simp) equal]
    · have gap := tidy.apart region (by simp) u old above
      omega
  · intro t member early
    obtain ⟨u, old, same, same'⟩ := origin t member
    rw [← same] at early
    rw [← same']
    exact last u old early

/-- A change of a range is a change of its front and then of the rest. -/
theorem change_append {old middle new : PointMap} (change : Option VmRegion → VmRegion)
    {low between high : Nat} (order : low ≤ between) (limit : between ≤ high)
    (front : ∀ a, middle a = if low ≤ a ∧ a < between then some (change (old a)) else old a)
    (rest : ∀ a, new a = if between ≤ a ∧ a < high then some (change (middle a)) else middle a)
    (a : Nat) : new a = if low ≤ a ∧ a < high then some (change (old a)) else old a := by
  rw [rest, front]
  by_cases early : a < between
  · rw [if_neg (by omega)]
    exact if_congr (by omega) rfl rfl
  · rw [if_neg (fun both : low ≤ a ∧ a < between => early both.2)]
    exact if_congr (by omega) rfl rfl

/-- With a round for each address that is left, the loop ends and has mapped them all. -/
theorem fill_spec {rounds : Nat} (permissions : MemoryPermission)
    (attributes : VmMappingAttributes) (ready : Ready cursor stop regions)
    (bound : stop ≤ addressSpaceEnd) (enough : stop - cursor ≤ rounds) :
    ∃ regions', fill stop permissions attributes rounds cursor regions = some regions' ∧
      Tidy regions' ∧ (∀ region ∈ regions', region.stop ≤ addressSpaceEnd) ∧
      ∀ a, valueAt regions' a =
        if cursor ≤ a ∧ a < stop then some (PointMap.joined permissions attributes (valueAt regions a))
        else valueAt regions a := by
  induction rounds generalizing cursor regions with
  | zero =>
    refine ⟨regions, if_neg (by omega), ready.tidy, ready.within, fun a => ?_⟩
    rw [if_neg (by omega)]
  | succ rounds ih =>
    unfold fill
    by_cases more : cursor < stop
    · rw [if_pos more]
      dsimp only
      -- the regions from the cursor on, in their order
      have whole := lowerBound_append cursor regions
      have later : ∀ region ∈ regions, cursor ≤ region.start →
          region ∈ (lowerBound cursor regions).2 :=
        fun region member begun => (mem_lowerBound ready.tidy.sorted).2.mpr ⟨member, begun⟩
      have behind : ∀ region ∈ (lowerBound cursor regions).2, cursor ≤ region.start :=
        fun region member => ((mem_lowerBound ready.tidy.sorted).2.mp member).2
      generalize lowerBound cursor regions = parts at whole later behind
      obtain ⟨before, rest⟩ := parts
      cases rest with
      | nil =>
        have next : ∀ region ∈ regions, cursor ≤ region.start → stop ≤ region.start :=
          fun region member begun => nomatch later region member begun
        obtain ⟨ready', front, free⟩ := ready.gap more (Nat.le_refl _) bound next
          (PointMap.joined permissions attributes none)
        obtain ⟨regions', filled, tidy, within, values⟩ := ih ready' (by omega)
        refine ⟨regions', filled, tidy, within, ?_⟩
        refine change_append (PointMap.joined permissions attributes) more.le (Nat.le_refl _)
          (fun a => ?_) values
        rw [front]
        split
        · rw [free a ‹_ ∧ _›.1 ‹_ ∧ _›.2]
        · rfl
      | cons region after =>
        dsimp only at whole ⊢
        have begun := behind region List.mem_cons_self
        have sorted := ready.tidy.sorted
        rw [← whole, List.pairwise_append] at sorted
        by_cases gap : cursor < region.start
        · rw [if_pos gap]
          have next : ∀ t ∈ regions, cursor ≤ t.start → min stop region.start ≤ t.start := by
            intro t member late
            have least : region.start ≤ t.start := by
              rcases List.mem_cons.mp (later t member late) with rfl | inner
              · exact Nat.le_refl _
              · exact ((List.pairwise_cons.mp sorted.2.1).1 t inner).le
            exact (Nat.min_le_right _ _).trans least
          obtain ⟨ready', front, free⟩ := ready.gap (lt_min more gap) (Nat.min_le_left _ _) bound
            next (PointMap.joined permissions attributes none)
          obtain ⟨regions', filled, tidy, within, values⟩ := ih ready' (by omega)
          refine ⟨regions', filled, tidy, within, ?_⟩
          refine change_append (PointMap.joined permissions attributes) (by omega) (by omega)
            (fun a => ?_) values
          rw [front]
          split
          · rw [free a ‹_ ∧ _›.1 ‹_ ∧ _›.2]
          · rfl
        · rw [if_neg gap]
          obtain rfl : region.start = cursor := Nat.le_antisymm (Nat.not_lt.mp gap) begun
          subst whole
          have busy := ready.tidy.busy region (by simp)
          have limit := ready.last region (by simp) more
          obtain ⟨ready', front⟩ := ready.join
            (PointMap.joined permissions attributes (some region.value))
          obtain ⟨regions', filled, tidy, within, values⟩ := ih ready' (by omega)
          refine ⟨regions', filled, tidy, within, ?_⟩
          refine change_append (PointMap.joined permissions attributes) busy.le limit
            (fun a => ?_) values
          rw [front]
          by_cases inside : region.Contains a
          · rw [if_pos inside, if_pos (show region.start ≤ a ∧ a < region.stop from inside),
              ready.tidy.valueAt_of_mem (by simp) inside]
          · rw [if_neg inside, if_neg (show ¬ (region.start ≤ a ∧ a < region.stop) from inside)]
    · rw [if_neg more]
      refine ⟨regions, rfl, ready.tidy, ready.within, fun a => ?_⟩
      rw [if_neg (by omega)]

end fill
end VmMap
end ILEmu
